/-
When the ROS node restarts, and when it moves (`ros.c`, `main.c`).

* `HostHistory` — the time of the last response is that of the last accepted one;
* `restarts_iff` — the board restarts exactly if a response was accepted once and none for a
  minute after it, and then every wheel is braked;
* `node_watchdog` — with everything else the node does, motion still needs a live command less
  than 500 ms old.
-/
import Base101.RosPublications
import Base101.WheelsBraking

section Restart

variable {F : Type} [Double F] {env : NodeBus F} {n n' : RosNode F} {now : UInt64}

/-! ### The last response -/

/-- The last of the accepted responses came 60 s before `now` or earlier. -/
def HostSilent (acceptedUs : List UInt64) (now : UInt64) : Prop :=
  ∃ t ∈ acceptedUs, (∀ t' ∈ acceptedUs, t' ≤ t) ∧ t.toNat + 60000000 ≤ now.toNat

/-- What the board remembers of the accepted responses. -/
structure HostHistory (env : NodeBus F) (n : RosNode F) : Prop where
  seen : n.board.hostSeen = true ↔ n.acceptedUs ≠ []
  last : ∀ t ts, n.acceptedUs = t :: ts → n.board.lastHostResponseUs = t
  ordered : n.acceptedUs.Pairwise fun later earlier => earlier ≤ later
  past : ∀ t ∈ n.acceptedUs, ∀ k, n.ros.wheels.ticks ≤ k → t ≤ env.clock k

omit [Double F] in
theorem HostHistory.congr (h : HostHistory env n)
    (hticks : n.ros.wheels.ticks ≤ n'.ros.wheels.ticks)
    (hseen : n'.board.hostSeen = n.board.hostSeen)
    (hlast : n'.board.lastHostResponseUs = n.board.lastHostResponseUs)
    (haccepted : n'.acceptedUs = n.acceptedUs) : HostHistory env n' where
  seen := by rw [hseen, haccepted]; exact h.seen
  last := by rw [hlast, haccepted]; exact h.last
  ordered := by rw [haccepted]; exact h.ordered
  past := by
    rw [haccepted]
    intro t ht k hk
    exact h.past t ht k (hticks.trans hk)

omit [Double F] in
theorem HostHistory.response (h : HostHistory env n) (response : Int64MultiArray) :
    HostHistory env (nodeTimeSyncResponse env n response) := by
  rw [nodeTimeSyncResponse]
  dsimp only
  have hboard : (readNode env n).2.board = n.board := rfl
  rw [hboard]
  rcases onTimeSync_cases n.board response (readNode env n).1 with hcall | ⟨_, _, _, -, -, hcall⟩
  · rw [hcall]
    exact h.congr (Nat.le_succ _) rfl rfl rfl
  · rw [hcall]
    -- the response is accepted at this reading, which is later than all before
    have hreading : ∀ t ∈ n.acceptedUs, t ≤ (readNode env n).1 :=
      fun t ht => h.past t ht _ (Nat.le_refl _)
    constructor
    · exact ⟨fun _ => List.cons_ne_nil _ _, fun _ => rfl⟩
    · intro t ts hcons
      exact (List.cons.inj hcons).1
    · exact List.pairwise_cons.mpr ⟨hreading, h.ordered⟩
    · intro t ht k hk
      have hlate : n.ros.wheels.ticks ≤ k := Nat.le_of_succ_le hk
      rcases List.mem_cons.mp ht with rfl | ht
      · exact env.clock_mono _ _ hlate
      · exact h.past t ht k hlate

omit [Double F] in
theorem HostHistory.request (h : HostHistory env n) :
    HostHistory env (nodeTimeSyncUpdate env n) := by
  rw [nodeTimeSyncUpdate]
  dsimp only
  rw [timeSyncUpdate]
  split_ifs
  · exact h.congr (Nat.le_succ _) rfl rfl rfl
  · exact h.congr (Nat.le_succ _) rfl rfl rfl

omit [Double F] in
theorem HostHistory.turn (h : HostHistory env n) {topics : List Topic}
    (hturn : Turn n n' now topics) : HostHistory env n' :=
  h.congr hturn.ticks (by rw [hturn.board]) (by rw [hturn.board]) hturn.accepted

theorem hostHistory_node (env : NodeBus F) :
    NodeInvariant env (HostHistory env) (fun _ _ => True) where
  quiet _ _ hsame h :=
    h.congr hsame.ticks (by rw [hsame.board]) (by rw [hsame.board]) hsame.accepted
  response _ response _ h := h.response response
  request _ h := h.request
  publish n k himu _ _ h := by
    obtain ⟨n₁, n₂, hstatus, hodom, himuTurn⟩ := publishDue_turns n (env.clock k) himu
    exact ((h.turn hstatus).turn hodom).turn himuTurn

theorem nodeRun_hostHistory (env : NodeBus F) (header : Option (CalibrationParameters F))
    (N : ℕ) : HostHistory env (nodeRun env header N) ∧ ImuPast env (nodeRun env header N) := by
  refine (hostHistory_node env).run ?_ N fun k _ => messagesMeet_true env _ _
  have hunseen : (nodeSetup env header).board.hostSeen = false := rfl
  refine ⟨⟨?_, fun h => absurd rfl h⟩, ?_, List.Pairwise.nil, ?_⟩
  · intro hseen
    rw [hunseen] at hseen
    cases hseen
  · intro t ts hcons
    exact absurd hcons (List.cons_ne_nil t ts).symm
  · intro t ht
    exact absurd ht List.not_mem_nil

omit [Double F] in
/-- The code's test is about the accepted responses. -/
theorem HostHistory.lost_iff (h : HostHistory env n) (hlate : ∀ t ∈ n.acceptedUs, t ≤ now) :
    HostLost n now ↔ HostSilent n.acceptedUs now := by
  have hlimit : rosHostRestartUs.toNat = 60000000 := rfl
  cases haccepted : n.acceptedUs with
  | nil =>
    constructor
    · intro hlost
      exact absurd haccepted (h.seen.mp hlost.1)
    · rintro ⟨t, ht, -⟩
      exact absurd ht List.not_mem_nil
  | cons t ts =>
    have hlast := h.last t ts haccepted
    have hordered := h.ordered
    rw [haccepted] at hlate hordered
    have hpast := hlate t (by simp)
    have hnewest : ∀ t' ∈ t :: ts, t' ≤ t := by
      intro t' ht'
      rcases List.mem_cons.mp ht' with rfl | ht'
      · exact UInt64.le_refl _
      · exact (List.pairwise_cons.mp hordered).1 t' ht'
    rw [HostLost, hlast, Clock.le_sub_iff hpast, hlimit]
    constructor
    · rintro ⟨-, hsilent⟩
      exact ⟨t, by simp, hnewest, hsilent⟩
    · rintro ⟨u, hu, hgreatest, hsilent⟩
      have hsame : t ≤ u := hgreatest t (by simp)
      rw [UInt64.le_iff_toNat_le] at hsame
      exact ⟨h.seen.mpr (by rw [haccepted]; simp), by omega⟩

/-! ### The restart -/

/-- What an iteration finds when it decides about the restart. -/
theorem beforeRestart_history {n : RosNode F} (h : HostHistory env n) (himu : ImuPast env n) :
    (HostLost (beforeRestart env n).2 (beforeRestart env n).1 ↔
      HostSilent (beforeRestart env n).2.acceptedUs (beforeRestart env n).1) := by
  obtain ⟨m, hm, -, hbefore⟩ := (hostHistory_node env).before h himu (messagesMeet_true env _ _)
  rw [hbefore]
  have hread : HostHistory env (readNode env m).2 := hm.congr (Nat.le_succ _) rfl rfl rfl
  exact hread.lost_iff fun t ht => hm.past t ht _ (Nat.le_refl _)

theorem beforeRestart_imuPast (env : NodeBus F) (header : Option (CalibrationParameters F))
    (N : ℕ) : ImuPast env (beforeRestart env (nodeRun env header N)).2 := by
  obtain ⟨hhistory, himu⟩ := nodeRun_hostHistory env header N
  obtain ⟨m, -, hm, hbefore⟩ :=
    (hostHistory_node env).before hhistory himu (messagesMeet_true env _ _)
  rw [hbefore]
  exact hm.mono (Nat.le_succ _) rfl

/-- A running node restarts in an iteration, or runs on. -/
theorem nodeLoop_rebooted (hrunning : n.rebooted = false)
    (hkept : (beforeRestart env n).2.rebooted = false)
    (himu : ImuPast env (beforeRestart env n).2) :
    ((nodeLoop env n).rebooted = true ↔
      HostLost (beforeRestart env n).2 (beforeRestart env n).1) ∧
    ((nodeLoop env n).rebooted = true → Halted (nodeLoop env n).ros.wheels) := by
  rw [nodeLoop, if_neg (by simp [hrunning]), rosUpdate]
  generalize beforeRestart env n = out at hkept himu ⊢
  obtain ⟨now, m⟩ := out
  dsimp only at hkept himu ⊢
  by_cases hlost : HostLost m now
  · rw [if_pos hlost]
    have hrestarted : (restartForConnectionLoss env m).rebooted = true := rfl
    rw [if_pos hrestarted]
    exact ⟨⟨fun _ => hlost, fun _ => rfl⟩, fun _ => brakeAll_halted m.ros.wheels⟩
  · obtain ⟨n₁, n₂, hstatus, hodom, himuTurn⟩ := publishDue_turns m now himu
    have hruns : (publishDue env m now).rebooted = false := by
      rw [himuTurn.rebooted, hodom.rebooted, hstatus.rebooted, hkept]
    rw [if_neg hlost, if_neg (by simp [hruns])]
    have hnot : ¬(publishDue env m now).rebooted = true := by simp [hruns]
    exact ⟨⟨fun h => absurd h hnot, fun h => absurd h hlost⟩, fun h => absurd h hnot⟩

theorem nodeSpinOnce_rebooted (env : NodeBus F) (n : RosNode F) :
    (nodeSpinOnce env n).rebooted = n.rebooted := by
  rw [nodeSpinOnce]
  generalize env.inbox n.ros.loops = messages
  induction messages generalizing n with
  | nil => rfl
  | cons message messages ih =>
    rw [List.foldl_cons, ih]
    cases message with
    | wheels _ => rfl
    | odomReset reset => rw [nodeDispatch, onOdomReset]; split_ifs <;> rfl
    | timeSync _ => rfl

theorem beforeRestart_rebooted (env : NodeBus F) (n : RosNode F) :
    (beforeRestart env n).2.rebooted = n.rebooted := by
  have hspin := nodeSpinOnce_rebooted env n
  have hrequest (m : RosNode F) : (nodeTimeSyncUpdate env m).rebooted = m.rebooted := by
    rw [nodeTimeSyncUpdate]
    dsimp only
    split <;> rfl
  show (nodeTimeSyncUpdate env (nodeWatchdog env (nodeSpinOnce env n))).rebooted = n.rebooted
  rw [hrequest]
  exact hspin

/-- **The board restarts exactly if the host was there and has been silent for a minute.**  It
restarts in the first iteration that finds the last accepted response 60 s old or older; without
an accepted response it never does.  From then on every online wheel is braked. -/
theorem restarts_iff (env : NodeBus F) (header : Option (CalibrationParameters F)) (N : ℕ) :
    ((nodeRun env header N).rebooted = true ↔
      ∃ k < N, HostSilent (beforeRestart env (nodeRun env header k)).2.acceptedUs
        (beforeRestart env (nodeRun env header k)).1) ∧
    ((nodeRun env header N).rebooted = true → Halted (nodeRun env header N).ros.wheels) := by
  induction N with
  | zero =>
    have hrunning : (nodeRun env header 0).rebooted = false := rfl
    rw [hrunning]
    refine ⟨⟨fun h => (by cases h), ?_⟩, fun h => (by cases h)⟩
    rintro ⟨k, hk, -⟩
    exact absurd hk (Nat.not_lt_zero k)
  | succ N ih =>
    obtain ⟨hhistory, himu⟩ := nodeRun_hostHistory env header N
    rw [nodeRun_succ]
    cases hrebooted : (nodeRun env header N).rebooted with
    | true =>
      -- the restarted board does nothing more
      have hstays : nodeLoop env (nodeRun env header N) = nodeRun env header N := by
        rw [nodeLoop, if_pos hrebooted]
      rw [hstays, hrebooted]
      obtain ⟨k, hk, hsilent⟩ := ih.1.mp hrebooted
      exact ⟨⟨fun _ => ⟨k, Nat.lt_succ_of_lt hk, hsilent⟩, fun _ => rfl⟩,
        fun _ => ih.2 hrebooted⟩
    | false =>
      have hkept : (beforeRestart env (nodeRun env header N)).2.rebooted = false := by
        rw [beforeRestart_rebooted, hrebooted]
      obtain ⟨hlost, hhalted⟩ :=
        nodeLoop_rebooted hrebooted hkept (beforeRestart_imuPast env header N)
      rw [beforeRestart_history hhistory himu] at hlost
      refine ⟨?_, hhalted⟩
      rw [hlost]
      constructor
      · intro hsilent
        exact ⟨N, Nat.lt_succ_self N, hsilent⟩
      · rintro ⟨k, hk, hsilent⟩
        -- an earlier restart would still be in force
        rcases Nat.lt_or_eq_of_le (Nat.le_of_lt_succ hk) with hbefore | rfl
        · have hearlier := ih.1.mpr ⟨k, hbefore, hsilent⟩
          rw [hrebooted] at hearlier
          cases hearlier
        · exact hsilent

/-! ### Motion -/

omit [Double F] in
theorem Watched.ticked {env : RosBus F} {r r' : Ros F} (h : Watched env r)
    (hros : r' = { r with wheels := { r.wheels with ticks := r'.wheels.ticks } })
    (hticks : r.wheels.ticks ≤ r'.wheels.ticks) : Watched env r' := by
  rw [hros]
  exact h.extended id id (fun _ hlive => hlive) hticks rfl rfl rfl

/-- An update keeps the watchdog's invariant. -/
theorem wheelsUpdate_watched {env : RosBus F} {r : Ros F} (h : Watched env r) (loops : ℕ) :
    Watched env { r with wheels := wheelsUpdate env.toBus r.wheels, loops } := by
  rcases wheelsUpdate_cases env.toBus r.wheels with
    ⟨hext, hmotion⟩ | ⟨hmoving, hext, hmotion⟩ | ⟨hmoving, w, hext, hbraked⟩
  · refine h.extended ?_ ?_ ?_ hext.ticks rfl rfl rfl
    · exact fun hm => by rw [← hmotion]; exact hm
    · exact fun hc => by rw [← hext.gyro] at hc; exact hc
    · exact fun _ hlive => hlive.extends (hext.mono fun _ => And.right)
  · refine h.extended (fun _ => hmoving) ?_ (fun _ hlive => hlive.extends hext) hext.ticks
      rfl rfl rfl
    exact fun hc => by rw [← hext.gyro] at hc; exact hc
  · refine h.stopped ?_ ?_ rfl rfl
    · exact hbraked ▸ brakeAll_motionEnabled w
    · exact hbraked ▸ hext.ticks.trans (brakeAll_extends env.toBus w).ticks

theorem nodeSpinOnce_watched (h : Watched env.toRosBus n.ros) :
    Watched env.toRosBus (nodeSpinOnce env n).ros := by
  rw [nodeSpinOnce]
  generalize env.inbox n.ros.loops = messages
  induction messages generalizing n with
  | nil => exact h
  | cons message messages ih =>
    rw [List.foldl_cons]
    apply ih
    cases message with
    | wheels message => exact dispatch_watched h message
    | odomReset reset => rw [nodeDispatch, onOdomReset]; split_ifs <;> exact h
    | timeSync response => exact h.ticked rfl (Nat.le_succ _)

/-- From the watchdog to the decision about the restart. -/
theorem beforeRestart_watched (h : Watched env.toRosBus n.ros) :
    Watched env.toRosBus (beforeRestart env n).2.ros := by
  have hwatchdog := cmdVelWatchdog_watched (nodeSpinOnce_watched h)
  have hrequest : Watched env.toRosBus
      (nodeTimeSyncUpdate env (nodeWatchdog env (nodeSpinOnce env n))).ros := by
    rw [nodeTimeSyncUpdate]
    dsimp only
    split <;> exact Watched.ticked hwatchdog rfl (Nat.le_succ _)
  have hsample := sampleImu_watched hrequest
  exact Watched.ticked hsample rfl (Nat.le_add_right _ 2)

theorem nodeLoop_watched (h : Watched env.toRosBus n.ros)
    (himu : ImuPast env (beforeRestart env n).2) : Watched env.toRosBus (nodeLoop env n).ros := by
  rw [nodeLoop]
  by_cases hrebooted : n.rebooted = true
  · rw [if_pos hrebooted]
    exact h
  rw [if_neg hrebooted, rosUpdate]
  have hbefore := beforeRestart_watched h
  generalize beforeRestart env n = out at himu hbefore ⊢
  obtain ⟨now, m⟩ := out
  dsimp only at himu hbefore ⊢
  by_cases hlost : HostLost m now
  · rw [if_pos hlost]
    have hrestarted : (restartForConnectionLoss env m).rebooted = true := rfl
    rw [if_pos hrestarted]
    exact hbefore.stopped (brakeAll_motionEnabled m.ros.wheels)
      (brakeAll_extends env.toBus m.ros.wheels).ticks rfl rfl
  · obtain ⟨n₁, n₂, hstatus, hodom, himuTurn⟩ := publishDue_turns m now himu
    have hpublished : Watched env.toRosBus (publishDue env m now).ros :=
      ((hbefore.ticked hstatus.ros hstatus.ticks).ticked hodom.ros hodom.ticks).ticked
        himuTurn.ros himuTurn.ticks
    rw [if_neg hlost]
    split_ifs
    · exact hpublished
    · exact wheelsUpdate_watched hpublished _

theorem nodeRun_watched (env : NodeBus F) (header : Option (CalibrationParameters F)) (N : ℕ) :
    Watched env.toRosBus (nodeRun env header N).ros := by
  induction N with
  | zero => exact rosSetup_watched env.toRosBus header
  | succ N ih =>
    rw [nodeRun_succ]
    exact nodeLoop_watched ih (beforeRestart_imuPast env header N)

/-- From the watchdog to the decision about the restart no frame is sent. -/
theorem afterWatchdog_wheels (env : NodeBus F) (m : RosNode F) :
    (readNode env (updateOdometry env (nodeSampleImu env
        (nodeTimeSyncUpdate env m)))).2.ros.wheels.trace = m.ros.wheels.trace ∧
      (readNode env (updateOdometry env (nodeSampleImu env
        (nodeTimeSyncUpdate env m)))).2.ros.wheels.motionEnabled =
          m.ros.wheels.motionEnabled := by
  have hrequest : (nodeTimeSyncUpdate env m).ros.wheels.trace = m.ros.wheels.trace ∧
      (nodeTimeSyncUpdate env m).ros.wheels.motionEnabled = m.ros.wheels.motionEnabled := by
    rw [nodeTimeSyncUpdate]
    dsimp only
    split <;> exact ⟨rfl, rfl⟩
  have hread (m : RosNode F) : (readNode env m).2.ros.wheels.trace = m.ros.wheels.trace ∧
      (readNode env m).2.ros.wheels.motionEnabled = m.ros.wheels.motionEnabled := ⟨rfl, rfl⟩
  have hodom (m : RosNode F) : (updateOdometry env m).ros.wheels.trace = m.ros.wheels.trace ∧
      (updateOdometry env m).ros.wheels.motionEnabled = m.ros.wheels.motionEnabled := ⟨rfl, rfl⟩
  have hsample (m : RosNode F) : (nodeSampleImu env m).ros = sampleImu env.toRosBus m.ros := rfl
  obtain ⟨hmotion, htrace, -⟩ := sampleImu_wheels env.toRosBus (nodeTimeSyncUpdate env m).ros
  rw [(hread _).1, (hread _).2, (hodom _).1, (hodom _).2, hsample, htrace, hmotion]
  exact hrequest

/-- What follows the watchdog in an iteration leaves wheels at rest alone, or brakes them. -/
theorem nodeLoop_still (hrunning : n.rebooted = false)
    (himu : ImuPast env (beforeRestart env n).2)
    (hstill : (nodeWatchdog env (nodeSpinOnce env n)).ros.wheels.motionEnabled = false) :
    ∃ new, (nodeLoop env n).ros.wheels.trace =
        new ++ (nodeWatchdog env (nodeSpinOnce env n)).ros.wheels.trace ∧
      ∀ e ∈ new, e.isVelocity = false := by
  have hbefore := afterWatchdog_wheels env (nodeWatchdog env (nodeSpinOnce env n))
  rw [hstill] at hbefore
  change (beforeRestart env n).2.ros.wheels.trace = _ ∧
    (beforeRestart env n).2.ros.wheels.motionEnabled = _ at hbefore
  generalize (nodeWatchdog env (nodeSpinOnce env n)).ros.wheels.trace = trace at hbefore ⊢
  rw [nodeLoop, if_neg (by simp [hrunning]), rosUpdate]
  generalize beforeRestart env n = out at himu hbefore ⊢
  obtain ⟨now, m⟩ := out
  dsimp only at himu hbefore ⊢
  obtain ⟨rfl, hstillHere⟩ := hbefore
  by_cases hlost : HostLost m now
  · rw [if_pos hlost]
    have hrestarted : (restartForConnectionLoss env m).rebooted = true := rfl
    rw [if_pos hrestarted]
    exact (brakeAll_extends env.toBus m.ros.wheels).trace
  · obtain ⟨n₁, n₂, hstatus, hodom, himuTurn⟩ := publishDue_turns m now himu
    rw [if_neg hlost]
    have htrace : (publishDue env m now).ros.wheels.trace = m.ros.wheels.trace := by
      rw [himuTurn.ros, hodom.ros, hstatus.ros]
    have hmotion : (publishDue env m now).ros.wheels.motionEnabled = false := by
      rw [himuTurn.ros, hodom.ros, hstatus.ros]
      exact hstillHere
    split_ifs
    · exact ⟨[], htrace, by simp⟩
    · rw [← htrace]
      rcases wheelsUpdate_cases env.toBus (publishDue env m now).ros.wheels with
        ⟨hext, -⟩ | ⟨hmoving, -⟩ | ⟨hmoving, -⟩
      · obtain ⟨new, hnew, hquiet⟩ := hext.trace
        exact ⟨new, hnew, fun e he => (hquiet e he).1⟩
      -- the other outcomes need motion
      all_goals
        rw [hmotion] at hmoving
        cases hmoving

/-- **The command watchdog in the whole node.**  Whatever else the node receives, computes and
publishes: after the watchdog of an iteration motion is enabled only if it is allowed, and an
iteration whose watchdog does not allow it sends no velocity frame after it. -/
theorem node_watchdog (env : NodeBus F) (header : Option (CalibrationParameters F)) (N : ℕ)
    (hrunning : (nodeRun env header N).rebooted = false) :
    let before := nodeSpinOnce env (nodeRun env header N)
    let now := env.clock before.ros.wheels.ticks
    let r := (nodeWatchdog env before).ros
    (r.wheels.motionEnabled → MotionAllowed r now) ∧
      (¬MotionAllowed r now → ∃ new, (nodeRun env header (N + 1)).ros.wheels.trace =
        new ++ r.wheels.trace ∧ ∀ e ∈ new, e.isVelocity = false) := by
  intro before now r
  have hwatched : Watched env.toRosBus before.ros :=
    nodeSpinOnce_watched (nodeRun_watched env header N)
  have hallowed : r.wheels.motionEnabled = true → MotionAllowed r now :=
    cmdVelWatchdog_allowed hwatched
  refine ⟨hallowed, ?_⟩
  intro hnot
  have hstill : r.wheels.motionEnabled = false := by
    by_contra hm
    exact hnot (hallowed (by simpa using hm))
  rw [nodeRun_succ]
  exact nodeLoop_still hrunning (beforeRestart_imuPast env header N) hstill

/-- A node that gets a command in its third iteration, before its gyro is calibrated. -/
def earlyBus : NodeBus ℚ :=
  { answeredBus with inbox := fun k => if k = 2 then [.wheels (.cmdVel (1 / 5) 0)] else [] }

/-- The command is refused, and the iteration sends no velocity frame.  (The first motion of a
run needs 750 samples at rest.) -/
theorem node_watchdog_early :
    let before := nodeSpinOnce earlyBus (nodeRun earlyBus none 2)
    let r := (nodeWatchdog earlyBus before).ros
    r.wheels.motionEnabled = false ∧
      ∃ new, (nodeRun earlyBus none (2 + 1)).ros.wheels.trace = new ++ r.wheels.trace ∧
        ∀ e ∈ new, e.isVelocity = false := by
  have hcalibrated : (nodeWatchdog earlyBus
      (nodeSpinOnce earlyBus (nodeRun earlyBus none 2))).ros.wheels.gyro.calibrated = false := by
    decide +kernel
  have hwatchdog := node_watchdog earlyBus none 2 (by decide +kernel)
  dsimp only at hwatchdog ⊢
  generalize nodeSpinOnce earlyBus (nodeRun earlyBus none 2) = before at hcalibrated hwatchdog ⊢
  obtain ⟨hmotion, hstill⟩ := hwatchdog
  have hnot : ¬MotionAllowed (nodeWatchdog earlyBus before).ros
      (earlyBus.clock before.ros.wheels.ticks) := by
    rintro ⟨h, -⟩
    rw [hcalibrated] at h
    cases h
  exact ⟨Bool.eq_false_iff.mpr fun hm => hnot (hmotion hm), hstill hnot⟩

end Restart
