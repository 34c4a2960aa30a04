/-
What the ROS node publishes (`ros.c`).

The host answers requests of the node.  Its clock is `θ` nanoseconds ahead, and the network
may delay, repeat, reorder or drop its answers.

* `publishDue_turns` — what the end of an iteration publishes, and how old it is;
* `stamps_accurate` — every stamp is within 10 ms of the host's time of what it reports, and
  rests on an answer accepted in the 10 s before;
* `publications_spaced` — each topic keeps its period.
-/
import Base101.RosNode
import Base101.Periodic

section Publications

variable {F : Type} [Double F] {env : NodeBus F} {n n' n'' : RosNode F} {due now : UInt64}

open Arith64 (wrapping wrapping_sound)

/-! ### One publication -/

/-- The publication was due at `due`, what it reports is at most 50 ms old, and its stamp is
what the clock says. -/
structure Dated (clock : TimeSync) (due : UInt64) (p : Published F) : Prop where
  due : p.dueUs = due
  past : p.sampleUs ≤ p.checkedUs
  fresh : p.checkedUs.toNat ≤ p.sampleUs.toNat + 50000
  stamped : ∀ stamp, p.message.stamp = some stamp →
    (stampAt wrapping clock p.sampleUs).run = some stamp

/-- Publications on some of `topics`, the latest first. -/
def PostsDated (n n' : RosNode F) (due : UInt64) (topics : List Topic) : Prop :=
  ∃ new, Posts n n' new ∧ (new.map fun p => p.message.topic).Sublist topics ∧
    ∀ p ∈ new, Dated n.board.clock due p

omit [Double F] in
theorem PostsDated.none {topics : List Topic} {new : List (Published F)} (h : Posts n n' new)
    (hnew : new = []) : PostsDated n n' due topics := by
  subst hnew
  exact ⟨[], h, List.nil_sublist _, by simp⟩

omit [Double F] in
theorem PostsDated.trans {topics topics' : List Topic} (h : PostsDated n n' due topics)
    (h' : PostsDated n' n'' due topics') : PostsDated n n'' due (topics' ++ topics) := by
  obtain ⟨new, hposts, htopics, hdated⟩ := h
  obtain ⟨new', hposts', htopics', hdated'⟩ := h'
  refine ⟨new' ++ new, hposts.trans hposts', ?_, ?_⟩
  · rw [List.map_append]
    exact htopics'.append htopics
  · intro p hp
    rcases List.mem_append.mp hp with hp | hp
    · rw [← hposts.board]
      exact hdated' p hp
    · exact hdated p hp

omit [Double F] in
/-- One more publication after some readings. -/
theorem PostsDated.publish (env : NodeBus F) (h : Posts n n' []) {p : Published F}
    (hdated : Dated n.board.clock due p) :
    PostsDated n (easypPublish env n' p).2 due [p.message.topic] := by
  refine ⟨[p], h.trans (easypPublish_posts env n' p), ?_, ?_⟩
  · exact List.Sublist.refl _
  · intro q hq
    rw [List.mem_singleton.mp hq]
    exact hdated

theorem publishOdometry_posts (env : NodeBus F) (n : RosNode F) (due : UInt64) :
    PostsDated n (publishOdometry env n due) due [.odom] := by
  have hread := readNode_posts env n
  rw [publishOdometry]
  dsimp only
  split_ifs with hstale
  · exact .none hread rfl
  have hboard : (readNode env n).2.board = n.board := rfl
  have hodom : (readNode env n).2.odom = n.odom := rfl
  rw [hboard, hodom]
  cases hstamp : (stampAt wrapping n.board.clock n.odom.sampleUs).run with
  | none => exact .none hread rfl
  | some stamp =>
    -- the code has compared the age with 50 ms
    simp only [Bool.or_eq_true, not_or, decide_eq_true_eq, hodom] at hstale
    have hpast := UInt64.not_lt.mp hstale.1.1.2
    have hage := UInt64.not_lt.mp hstale.1.2
    refine PostsDated.publish env hread ⟨rfl, hpast, ?_, ?_⟩
    · rw [UInt64.le_iff_toNat_le, UInt64.toNat_sub_of_le _ _ hpast] at hage
      have hmax : odomMaxDtUs.toNat = 50000 := rfl
      dsimp only
      omega
    · intro stamp' hstamp'
      rw [← Option.some.inj hstamp']
      exact hstamp

omit [Double F] in
theorem publishMagneticField_posts (env : NodeBus F) (n : RosNode F) (due : UInt64) :
    PostsDated n (publishMagneticField env n due) due [.imuMag] := by
  rw [publishMagneticField]
  dsimp only
  have hcounted : Posts n { n with fields := n.fields + 1 } [] := (Posts.refl n).counted _ _ _
  cases env.magneticField n.fields with
  | none => exact .none hcounted rfl
  | some field =>
    dsimp only
    have hread := hcounted.trans (readNode_posts env { n with fields := n.fields + 1 })
    have hboard : (readNode env { n with fields := n.fields + 1 }).2.board = n.board := rfl
    rw [hboard]
    cases hstamp : (stampAt wrapping n.board.clock
        (readNode env { n with fields := n.fields + 1 }).1).run with
    | none => exact .none hread rfl
    | some stamp =>
      refine PostsDated.publish env hread ⟨rfl, UInt64.le_refl _, Nat.le_add_right _ _, ?_⟩
      intro stamp' hstamp'
      rw [← Option.some.inj hstamp']
      exact hstamp

theorem publishImuStatus_posts (env : NodeBus F) (n : RosNode F) (due : UInt64) :
    PostsDated n (publishImuStatus env n due) due [.imuStatus] := by
  rw [publishImuStatus]
  dsimp only
  have hcounted : Posts n { n with reports := n.reports + 1 } [] := (Posts.refl n).counted _ _ _
  have hread := hcounted.trans (readNode_posts env { n with reports := n.reports + 1 })
  have hread' := hread.trans (readNode_posts env _)
  refine PostsDated.publish env hread' ⟨rfl, UInt64.le_refl _, Nat.le_add_right _ _, ?_⟩
  intro stamp hstamp
  exact absurd hstamp (by simp [Publication.stamp])

omit [Double F] in
theorem Posts.imuPast {new : List (Published F)} (h : Posts n n' new) (himu : ImuPast env n) :
    ImuPast env n' := himu.mono h.ticks h.latestImuUs

omit [Double F] in
/-- The IMU's message and its temperature. -/
theorem publishSample_posts (env : NodeBus F) (n : RosNode F) (due now : UInt64)
    {stamp : RosTime} (hpast : n.ros.latestImuUs ≤ now)
    (hfresh : now - n.ros.latestImuUs ≤ odomMaxDtUs)
    (hstamp : (stampAt wrapping n.board.clock n.ros.latestImuUs).run = some stamp) :
    PostsDated n (easypPublish env (publishSample env n due now stamp)
      { dueUs := due, sampleUs := (publishSample env n due now stamp).ros.latestImuUs
        checkedUs := now
        message := .temperature stamp (publishSample env n due now stamp).ros.latestImu.tempC }).2
      due [.imuTemp, .imu] := by
  rw [UInt64.le_iff_toNat_le, UInt64.toNat_sub_of_le _ _ hpast] at hfresh
  have hmax : odomMaxDtUs.toNat = 50000 := rfl
  have hage : now.toNat ≤ n.ros.latestImuUs.toNat + 50000 := by omega
  have hdated (message : Publication F) (hmessage : message.stamp = some stamp) :
      Dated n.board.clock due { dueUs := due, sampleUs := n.ros.latestImuUs, checkedUs := now
                                message } := by
    refine ⟨rfl, hpast, hage, ?_⟩
    intro stamp' hstamp'
    rw [← Option.some.inj (hmessage.symm.trans hstamp')]
    exact hstamp
  have hsample : PostsDated n (publishSample env n due now stamp) due [.imu] := by
    obtain ⟨new, hposts, htopics, hnew⟩ :=
      PostsDated.publish env (Posts.refl n) (hdated (.imu stamp n.ros.latestImu) rfl)
    rw [publishSample]
    dsimp only
    split_ifs
    · exact ⟨new, hposts, htopics, hnew⟩
    · exact ⟨new, hposts.counted _ _ _, htopics, hnew⟩
  obtain ⟨new, hposts, htopics, hnew⟩ := hsample
  have hlatest := hposts.latestImuUs
  have hfirst : PostsDated n (publishSample env n due now stamp) due [.imu] :=
    ⟨new, hposts, htopics, hnew⟩
  refine hfirst.trans (PostsDated.publish env (Posts.refl _) ?_)
  rw [hposts.board, hlatest]
  exact hdated _ rfl

omit [Double F] in
theorem publishLatestImu_posts (n : RosNode F) (due : UInt64) (himu : ImuPast env n) :
    PostsDated n (publishLatestImu env n due) due [.imuTemp, .imu] := by
  rw [publishLatestImu]
  dsimp only
  split_ifs with hvalid hfresh
  · have hread := readNode_posts env n
    have hboard : (readNode env n).2.board = n.board := rfl
    have hlatest : (readNode env n).2.ros.latestImuUs = n.ros.latestImuUs := rfl
    rw [hboard, hlatest]
    cases hstamp : (stampAt wrapping n.board.clock n.ros.latestImuUs).run with
    | none => exact .none hread rfl
    | some stamp =>
      dsimp only
      have hpast : n.ros.latestImuUs ≤ (readNode env n).1 := himu _ (Nat.le_refl _)
      have hnone : PostsDated n (readNode env n).2 due [] := .none hread rfl
      exact hnone.trans
        (publishSample_posts env (readNode env n).2 due (readNode env n).1 hpast hfresh hstamp)
  · exact .none (readNode_posts env n) rfl
  · exact .none (Posts.refl n) rfl

omit [Double F] in
theorem publishImu_posts (n : RosNode F) (due : UInt64) (himu : ImuPast env n) :
    PostsDated n (publishImu env n due) due [.imuMag, .imuTemp, .imu] := by
  have hread := readNode_posts env n
  rw [publishImu]
  dsimp only
  split
  · exact .none hread rfl
  · have hlatest := publishLatestImu_posts (readNode env n).2 due (hread.imuPast himu)
    have hboth := hlatest.trans (publishMagneticField_posts env _ due)
    have hnone : PostsDated n (readNode env n).2 due [] := .none hread rfl
    exact hnone.trans hboth

/-! ### The end of an iteration -/

/-- When a topic is due. -/
def RosNode.timer (n : RosNode F) : Topic → UInt64
  | .timeSyncRequest => n.board.nextRequestUs
  | .odom => n.odomDue
  | .imu => n.imuDue
  | .imuTemp => n.imuDue
  | .imuMag => n.imuDue
  | .imuStatus => n.imuStatusDue

def Topic.periodUs : Topic → UInt64
  | .timeSyncRequest => requestPeriodUs
  | .odom => odomUs
  | .imu => imuUs
  | .imuTemp => imuUs
  | .imuMag => imuUs
  | .imuStatus => imuStatusUs

/-- The timer of `topics` is due, is put off by its period, and publishes. -/
structure Fired (n n' : RosNode F) (now : UInt64) (topics : List Topic)
    (new : List (Published F)) : Prop where
  timer : ∀ topic ∈ topics, n.timer topic ≤ now ∧ n'.timer topic = now + topic.periodUs
  outbox : n'.outbox = new ++ n.outbox
  topics : (new.map fun p => p.message.topic).Sublist topics

/-- The turn of the timer of `topics` at `now`, which is due or not. -/
structure Turn (n n' : RosNode F) (now : UInt64) (topics : List Topic) : Prop where
  ticks : n.ros.wheels.ticks ≤ n'.ros.wheels.ticks
  ros : n'.ros = { n.ros with wheels := { n.ros.wheels with ticks := n'.ros.wheels.ticks } }
  board : n'.board = n.board
  rebooted : n'.rebooted = n.rebooted
  accepted : n'.acceptedUs = n.acceptedUs
  others : ∀ topic ∉ topics, n'.timer topic = n.timer topic
  published : n'.outbox = n.outbox ∧ (∀ topic ∈ topics, n'.timer topic = n.timer topic) ∨
    ∃ new, Fired n n' now topics new ∧ ∀ p ∈ new, Dated n.board.clock now p

omit [Double F] in
theorem Turn.idle (n : RosNode F) (now : UInt64) (topics : List Topic) : Turn n n now topics :=
  ⟨Nat.le_refl _, rfl, rfl, rfl, rfl, fun _ _ => rfl, .inl ⟨rfl, fun _ _ => rfl⟩⟩

theorem statusWhenDue_turn (env : NodeBus F) (n : RosNode F) (now : UInt64) :
    Turn n (statusWhenDue env n now) now [.imuStatus] := by
  rw [statusWhenDue]
  split_ifs with hdue
  · obtain ⟨new, h, htopics, hdated⟩ :=
      publishImuStatus_posts env { n with imuStatusDue := now + imuStatusUs } now
    refine ⟨h.ticks, h.ros, h.board, h.rebooted, h.accepted, ?_, .inr ⟨new, ?_, hdated⟩⟩
    · intro topic htopic
      cases topic <;> simp_all [RosNode.timer, h.board, h.odomDue, h.imuDue]
    · refine ⟨?_, h.outbox, htopics⟩
      intro topic htopic
      rw [List.mem_singleton.mp htopic]
      exact ⟨hdue, h.imuStatusDue⟩
  · exact .idle n now _

theorem odometryWhenDue_turn (env : NodeBus F) (n : RosNode F) (now : UInt64) :
    Turn n (odometryWhenDue env n now) now [.odom] := by
  rw [odometryWhenDue]
  split_ifs with hdue
  · obtain ⟨new, h, htopics, hdated⟩ :=
      publishOdometry_posts env { n with odomDue := now + odomUs } now
    refine ⟨h.ticks, h.ros, h.board, h.rebooted, h.accepted, ?_, .inr ⟨new, ?_, hdated⟩⟩
    · intro topic htopic
      cases topic <;> simp_all [RosNode.timer, h.board, h.imuStatusDue, h.imuDue]
    · refine ⟨?_, h.outbox, htopics⟩
      intro topic htopic
      rw [List.mem_singleton.mp htopic]
      exact ⟨hdue, h.odomDue⟩
  · exact .idle n now _

omit [Double F] in
theorem imuWhenDue_turn (n : RosNode F) (now : UInt64) (himu : ImuPast env n) :
    Turn n (imuWhenDue env n now) now [.imuMag, .imuTemp, .imu] := by
  rw [imuWhenDue]
  split_ifs with hdue
  · obtain ⟨new, h, htopics, hdated⟩ :=
      publishImu_posts { n with imuDue := now + imuUs } now
        (himu.mono (Nat.le_refl _) rfl)
    refine ⟨h.ticks, h.ros, h.board, h.rebooted, h.accepted, ?_, .inr ⟨new, ?_, hdated⟩⟩
    · intro topic htopic
      cases topic <;> simp_all [RosNode.timer, h.board, h.imuStatusDue, h.odomDue]
    · refine ⟨?_, h.outbox, htopics⟩
      intro topic htopic
      have htimer : n.timer topic = n.imuDue ∧ topic.periodUs = imuUs ∧
          (publishImu env { n with imuDue := now + imuUs } now).timer topic =
            (publishImu env { n with imuDue := now + imuUs } now).imuDue := by
        cases topic <;> simp_all [RosNode.timer, Topic.periodUs]
      rw [htimer.1, htimer.2.1, htimer.2.2, h.imuDue]
      exact ⟨hdue, rfl⟩
  · exact .idle n now _

omit [Double F] in
theorem Turn.imuPast {topics : List Topic} (h : Turn n n' now topics) (himu : ImuPast env n) :
    ImuPast env n' := himu.mono h.ticks (by rw [h.ros])

/-- The three turns. -/
theorem publishDue_turns (n : RosNode F) (now : UInt64) (himu : ImuPast env n) :
    ∃ n₁ n₂, Turn n n₁ now [.imuStatus] ∧ Turn n₁ n₂ now [.odom] ∧
      Turn n₂ (publishDue env n now) now [.imuMag, .imuTemp, .imu] := by
  have hstatus := statusWhenDue_turn env n now
  have hodom := odometryWhenDue_turn env (statusWhenDue env n now) now
  refine ⟨_, _, hstatus, hodom, imuWhenDue_turn _ now ?_⟩
  exact hodom.imuPast (hstatus.imuPast himu)

/-! ### Runs -/

variable {I : RosNode F → Prop} {G : RosNode F → Int64MultiArray → Prop}

theorem NodeInvariant.loop (hI : NodeInvariant env I G) {n : RosNode F} (h : I n)
    (himu : ImuPast env n) (hG : MessagesMeet env G n (env.inbox n.ros.loops)) :
    I (nodeLoop env n) ∧ ImuPast env (nodeLoop env n) := by
  rw [nodeLoop]
  by_cases hrebooted : n.rebooted = true
  · rw [if_pos hrebooted]
    exact ⟨h, himu⟩
  rw [if_neg hrebooted, rosUpdate]
  obtain ⟨m₀, hm₀, himu₀, hbefore⟩ := hI.before h himu hG
  rw [hbefore]
  have hread := hI.quiet _ _ (readNode_sameHistory env m₀) hm₀
  have hreadImu : ImuPast env (readNode env m₀).2 := himu₀.mono (Nat.le_succ _) rfl
  have hticks : m₀.ros.wheels.ticks < (readNode env m₀).2.ros.wheels.ticks := Nat.lt_succ_self _
  have hreading : (readNode env m₀).1 = env.clock m₀.ros.wheels.ticks := rfl
  generalize readNode env m₀ = out at hread hreadImu hticks hreading ⊢
  obtain ⟨now, m⟩ := out
  dsimp only at hread hreadImu hticks hreading ⊢
  have hupdate (m' : RosNode F) (hm' : I m') (himu' : ImuPast env m') :
      I (if m'.rebooted then m' else
          { m' with ros := { m'.ros with wheels := wheelsUpdate env.toBus m'.ros.wheels
                                         loops := m'.ros.loops + 1 } }) ∧
        ImuPast env (if m'.rebooted then m' else
          { m' with ros := { m'.ros with wheels := wheelsUpdate env.toBus m'.ros.wheels
                                         loops := m'.ros.loops + 1 } }) := by
    split_ifs
    · exact ⟨hm', himu'⟩
    · have hsame := wheelsUpdate_sameHistory env m'
      exact ⟨hI.quiet _ _ hsame hm', himu'.mono hsame.ticks rfl⟩
  by_cases hlost : HostLost m now
  · rw [if_pos hlost]
    have hsame := restart_sameHistory env m
    exact hupdate _ (hI.quiet _ _ hsame hread) (hreadImu.mono hsame.ticks rfl)
  · rw [if_neg hlost]
    obtain ⟨n₁, n₂, hstatus, hodom, himuTurn⟩ := publishDue_turns m now hreadImu
    rw [hreading] at hlost himuTurn ⊢
    exact hupdate _ (hI.publish m _ hreadImu hticks hlost hread)
      (himuTurn.imuPast (hodom.imuPast (hstatus.imuPast hreadImu)))

/-- **Every run of the node keeps an invariant** in which the responses meet `G`. -/
theorem NodeInvariant.run (hI : NodeInvariant env I G)
    {header : Option (CalibrationParameters F)} (hsetup : I (nodeSetup env header)) (N : ℕ)
    (hG : ∀ k < N, MessagesMeet env G (nodeRun env header k)
      (env.inbox (nodeRun env header k).ros.loops)) :
    I (nodeRun env header N) ∧ ImuPast env (nodeRun env header N) := by
  induction N with
  | zero => exact ⟨hsetup, fun k _ => UInt64.zero_le⟩
  | succ N ih =>
    obtain ⟨hrun, himu⟩ := ih fun k hk => hG k (Nat.lt_succ_of_lt hk)
    rw [nodeRun_succ]
    exact hI.loop hrun himu (hG N (Nat.lt_succ_self N))

/-! ### Stamps -/

/-- A stamp in nanoseconds. -/
def RosTime.ns (stamp : RosTime) : ℤ := stamp.sec.toInt * 1000000000 + stamp.nanosec.toNat

def Publication.request? : Publication F → Option UInt64
  | .timeSyncRequest request => some request
  | _ => none

/-- The requests for the host's time. -/
def RosNode.requests (n : RosNode F) : List UInt64 := n.outbox.filterMap (·.message.request?)

/-- A response the code looks at is the host's answer to a request of the node; the host read
its clock between the request and `now`. -/
def HostAnswered (θ : ℤ) (n : RosNode F) (response : Int64MultiArray) (now : UInt64) : Prop :=
  match response.data with
  | [echoedUs, receivedNs, sentNs] => response.dataOffset = 0 →
    ∃ request ∈ n.requests, echoedUs.toInt = request.toNat ∧
      1000 * request.toNat + θ ≤ receivedNs.toInt ∧ sentNs.toInt ≤ 1000 * now.toNat + θ
  | _ => True

instance (θ : ℤ) (n : RosNode F) (response : Int64MultiArray) (now : UInt64) :
    Decidable (HostAnswered θ n response now) := by
  unfold HostAnswered
  split <;> infer_instance

/-- The host's answers are all that arrives in an iteration. -/
def HonestHost (env : NodeBus F) (θ : ℤ) (n : RosNode F) : Prop :=
  MessagesMeet env (fun n response => HostAnswered θ n response (env.clock n.ros.wheels.ticks)) n
    (env.inbox n.ros.loops)

instance (env : NodeBus F) (θ : ℤ) (n : RosNode F) : Decidable (HonestHost env θ n) :=
  inferInstanceAs (Decidable (MessagesMeet env _ n _))

/-- What is reported is at most 50 ms old.  Its stamp is within 10 ms of the host's time, and
rests on a response accepted in the 10 s before. -/
structure Accurate (θ : ℤ) (acceptedUs : List UInt64) (p : Published F) : Prop where
  past : p.sampleUs ≤ p.checkedUs
  fresh : p.checkedUs.toNat ≤ p.sampleUs.toNat + 50000
  stamp : ∀ stamp, p.message.stamp = some stamp → stamp.nanosec.toNat < 1000000000 ∧
    |stamp.ns - (1000 * p.sampleUs.toNat + θ)| ≤ 10000000 ∧
    ∃ t ∈ acceptedUs, t ≤ p.sampleUs ∧ p.sampleUs.toNat < t.toNat + 10000000

/-- What holds of the node's clock and of what it published. -/
structure ClockInvariant (θ : ℤ) (n : RosNode F) : Prop where
  bounded : OffsetBounded n.board.clock
  maxRtt : n.board.clock.maxRttNs.toNat = 20000000
  timeout : n.board.clock.timeoutUs.toNat = 10000000
  /-- The request that waits for its answer was published. -/
  pending : n.board.clock.pending = true → n.board.clock.requestUs ∈ n.requests
  accurate : n.board.clock.synced = true →
    |n.board.clock.offsetNs.toInt - θ| ≤ 10000000 ∧ n.board.clock.lastSyncUs ∈ n.acceptedUs
  published : ∀ p ∈ n.outbox, Accurate θ n.acceptedUs p

variable {θ : ℤ}

omit [Double F] in
theorem Accurate.mono {acceptedUs acceptedUs' : List UInt64} {p : Published F}
    (h : Accurate θ acceptedUs p) (hsubset : acceptedUs ⊆ acceptedUs') :
    Accurate θ acceptedUs' p := by
  refine ⟨h.past, h.fresh, ?_⟩
  intro stamp hstamp
  obtain ⟨hproper, hclose, t, ht, hrecent⟩ := h.stamp stamp hstamp
  exact ⟨hproper, hclose, t, hsubset ht, hrecent⟩

/-- A stamp is the local time and the offset, added, while the clock is synchronised. -/
theorem stampAt_eq_some {clock : TimeSync} (hclock : OffsetBounded clock) {localUs : UInt64}
    {stamp : RosTime} (h : (stampAt wrapping clock localUs).run = some stamp) :
    TimeAvailable clock localUs ∧
      stamp.Represents (localUs.toNat * 1000 + clock.offsetNs.toInt) := by
  obtain ⟨havailable, hunavailable⟩ := timeSyncTime_eq wrapping_sound hclock localUs
  by_cases ht : TimeAvailable clock localUs
  · refine ⟨ht, ?_⟩
    have hnonneg := ht.nonneg
    have hroom := ht.room
    rw [← ht.toInt_estimate] at hnonneg hroom ⊢
    obtain ⟨hstamp, hrepresents⟩ :=
      stampAt_some wrapping_sound (havailable ht) hnonneg hroom
    rw [hstamp] at h
    rw [← Option.some.inj h]
    exact hrepresents
  · rw [stampAt_none (hunavailable ht)] at h
    exact absurd h (by simp [Id.run])

omit [Double F] in
theorem ClockInvariant.stamped (h : ClockInvariant θ n) {p : Published F}
    (hdated : Dated n.board.clock due p) : Accurate θ n.acceptedUs p := by
  refine ⟨hdated.past, hdated.fresh, ?_⟩
  intro stamp hstamp
  obtain ⟨havailable, hrepresents⟩ := stampAt_eq_some h.bounded (hdated.stamped stamp hstamp)
  obtain ⟨hclose, haccepted⟩ := h.accurate havailable.synced
  have hafter := havailable.after
  have hfresh := havailable.fresh
  rw [h.timeout] at hfresh
  refine ⟨hrepresents.proper, ?_, _, haccepted, UInt64.le_iff_toNat_le.mpr hafter, hfresh⟩
  rw [RosTime.ns, hrepresents.value, abs_le]
  rw [abs_le] at hclose
  omega

omit [Double F] in
theorem ClockInvariant.quiet (hsame : SameHistory n n') (h : ClockInvariant θ n) :
    ClockInvariant θ n' := by
  have hrequests : n'.requests = n.requests := by rw [RosNode.requests, hsame.outbox]; rfl
  constructor
  case bounded => rw [hsame.board]; exact h.bounded
  case maxRtt => rw [hsame.board]; exact h.maxRtt
  case timeout => rw [hsame.board]; exact h.timeout
  case pending => rw [hsame.board, hrequests]; exact h.pending
  case accurate => rw [hsame.board, hsame.accepted]; exact h.accurate
  case published => rw [hsame.outbox, hsame.accepted]; exact h.published

omit [Double F] in
/-- A response is ignored, rejected or accepted. -/
theorem onTimeSync_cases (board : SyncBoard) (response : Int64MultiArray) (now : UInt64) :
    onTimeSync board response now = (board, false) ∨
      ∃ echoedUs receivedNs sentNs : Int64,
        response = ⟨0, [echoedUs, receivedNs, sentNs]⟩ ∧
        Accepts board.clock echoedUs receivedNs sentNs now ∧
        onTimeSync board response now =
          ({ board with clock := acceptedClock board.clock receivedNs sentNs now
                        hostSeen := true, lastHostResponseUs := now }, true) := by
  obtain ⟨offset, data⟩ := response
  match data with
  | [echoedUs, receivedNs, sentNs] =>
    by_cases hoffset : offset = 0
    · subst hoffset
      rcases onTimeSync_eq board echoedUs receivedNs sentNs now with ⟨haccepts, hcall⟩ | hcall
      · exact .inr ⟨_, _, _, rfl, haccepts, hcall⟩
      · exact .inl hcall
    · exact .inl (by simp [onTimeSync, hoffset])
  | [] => exact .inl rfl
  | [_] => exact .inl rfl
  | [_, _] => exact .inl rfl
  | _ :: _ :: _ :: _ :: _ => exact .inl rfl

omit [Double F] in
theorem ClockInvariant.response {response : Int64MultiArray} (h : ClockInvariant θ n)
    (hhost : HostAnswered θ n response (env.clock n.ros.wheels.ticks)) :
    ClockInvariant θ (nodeTimeSyncResponse env n response) := by
  have hread := h.quiet (readNode_sameHistory env n)
  rw [nodeTimeSyncResponse]
  dsimp only
  have hboard : (readNode env n).2.board = n.board := rfl
  rw [hboard]
  rcases onTimeSync_cases n.board response (readNode env n).1 with
    hcall | ⟨echoedUs, receivedNs, sentNs, rfl, haccepts, hcall⟩
  · rw [hcall]
    exact ⟨hread.bounded, hread.maxRtt, hread.timeout, hread.pending, hread.accurate,
      hread.published⟩
  · rw [hcall]
    -- the host read its clock between the pending request and this reading
    obtain ⟨request, hrequest, hecho, hreceived, hsent⟩ := hhost rfl
    have hsame : n.board.clock.requestUs.toNat = request.toNat := by
      have hechoed := haccepts.echoed
      omega
    have hclose := haccepts.accurate (θ := θ) (by rw [hsame]; exact hreceived) hsent
    rw [h.maxRtt, ← haccepts.toInt_offset] at hclose
    have hsubset : n.acceptedUs ⊆ (readNode env n).1 :: n.acceptedUs := List.subset_cons_self _ _
    constructor
    case bounded =>
      rw [OffsetBounded, haccepts.toInt_offset]
      exact haccepts.estimate_bounds
    case maxRtt => exact h.maxRtt
    case timeout => exact h.timeout
    case pending => intro hpending; exact absurd hpending (by simp [acceptedClock])
    case accurate =>
      intro _
      have hbound : |(acceptedClock n.board.clock receivedNs sentNs
          (readNode env n).1).offsetNs.toInt - θ| ≤ 10000000 := by omega
      exact ⟨hbound, List.mem_cons_self⟩
    case published =>
      intro p hp
      exact (h.published p hp).mono hsubset

omit [Double F] in
theorem ClockInvariant.request (h : ClockInvariant θ n) :
    ClockInvariant θ (nodeTimeSyncUpdate env n) := by
  have hread := h.quiet (readNode_sameHistory env n)
  rw [nodeTimeSyncUpdate]
  dsimp only
  rw [timeSyncUpdate]
  split_ifs with hwait
  · exact ⟨hread.bounded, hread.maxRtt, hread.timeout, hread.pending, hread.accurate,
      hread.published⟩
  · have hrequests : ∀ request ∈ n.requests, request ∈ (readNode env n).1 :: n.requests :=
      fun request hrequest => List.mem_cons_of_mem _ hrequest
    constructor
    case bounded => exact h.bounded
    case maxRtt => exact h.maxRtt
    case timeout => exact h.timeout
    case pending => intro _; exact List.mem_cons_self
    case accurate => exact h.accurate
    case published =>
      intro p hp
      rcases List.mem_cons.mp hp with rfl | hp
      · refine ⟨UInt64.le_refl _, Nat.le_add_right _ _, ?_⟩
        intro stamp hstamp
        exact absurd hstamp (by simp [Publication.stamp])
      · exact h.published p hp

omit [Double F] in
theorem ClockInvariant.turn {topics : List Topic} (hturn : Turn n n' now topics)
    (h : ClockInvariant θ n) : ClockInvariant θ n' := by
  have hnew : ∃ new, n'.outbox = new ++ n.outbox ∧ ∀ p ∈ new, Accurate θ n.acceptedUs p := by
    rcases hturn.published with ⟨houtbox, -⟩ | ⟨new, hfired, hdated⟩
    · exact ⟨[], houtbox, by simp⟩
    · exact ⟨new, hfired.outbox, fun p hp => h.stamped (hdated p hp)⟩
  obtain ⟨new, houtbox, haccurate⟩ := hnew
  have hrequests : n.requests ⊆ n'.requests := by
    rw [RosNode.requests, RosNode.requests, houtbox, List.filterMap_append]
    exact List.subset_append_right _ _
  constructor
  case bounded => rw [hturn.board]; exact h.bounded
  case maxRtt => rw [hturn.board]; exact h.maxRtt
  case timeout => rw [hturn.board]; exact h.timeout
  case pending => rw [hturn.board]; exact fun hpending => hrequests (h.pending hpending)
  case accurate => rw [hturn.board, hturn.accepted]; exact h.accurate
  case published =>
    rw [houtbox, hturn.accepted]
    intro p hp
    rcases List.mem_append.mp hp with hp | hp
    · exact haccurate p hp
    · exact h.published p hp

theorem clockInvariant_node (env : NodeBus F) (θ : ℤ) :
    NodeInvariant env (ClockInvariant θ)
      (fun n response => HostAnswered θ n response (env.clock n.ros.wheels.ticks)) where
  quiet _ _ hsame h := h.quiet hsame
  response _ _ hhost h := h.response hhost
  request _ h := h.request
  publish n k himu _ _ h := by
    obtain ⟨n₁, n₂, hstatus, hodom, himuTurn⟩ := publishDue_turns n (env.clock k) himu
    exact ((h.turn hstatus).turn hodom).turn himuTurn

theorem nodeSetup_clockInvariant (env : NodeBus F) (header : Option (CalibrationParameters F))
    (θ : ℤ) : ClockInvariant θ (nodeSetup env header) := by
  have hclock : (nodeSetup env header).board.clock =
      initialClock timeSyncMaxRttUs timeSyncTimeoutUs := rfl
  constructor
  case bounded =>
    rw [hclock]
    constructor <;> decide
  case maxRtt => rfl
  case timeout => rfl
  case pending => rw [hclock]; intro h; exact absurd h (by decide)
  case accurate => rw [hclock]; intro h; exact absurd h (by decide)
  case published => intro p hp; exact absurd hp List.not_mem_nil

/-- **What the node publishes is fresh and its stamps are right.**  The answers of an honest
host may be delayed, repeated, reordered or lost: everything published is at most 50 ms old when
it is published, and its stamp is within 10 ms of the host's time of what it reports and rests
on an answer accepted in the 10 s before.  The host's clock runs at the board's rate: it is ahead
of it by the fixed offset `θ`. -/
theorem stamps_accurate (env : NodeBus F) (header : Option (CalibrationParameters F)) (θ : ℤ)
    (N : ℕ) (hhost : ∀ k < N, HonestHost env θ (nodeRun env header k)) :
    ∀ p ∈ (nodeRun env header N).outbox, Accurate θ (nodeRun env header N).acceptedUs p :=
  ((clockInvariant_node env θ).run (nodeSetup_clockInvariant env header θ) N hhost).1.published

/-- A node at rest, half a millisecond a reading.  The host answers its first request. -/
def answeredBus : NodeBus ℚ where
  clock k := UInt64.ofNat (1000000 + min (500 * k) 1000000)
  clock_mono i j h := by
    have hlt (k : ℕ) : 1000000 + min (500 * k) 1000000 < UInt64.size := by
      have hcap := min_le_right (500 * k) 1000000
      have hsize : UInt64.size = 18446744073709551616 := rfl
      omega
    rw [UInt64.le_iff_toNat_le, UInt64.toNat_ofNat_of_lt' (hlt i),
      UInt64.toNat_ofNat_of_lt' (hlt j)]
    omega
  reply _ := { received := true, feedback1 := 0, errorCode := 0, temperature := 25 }
  mode _ := ddsm210ModeVelocity
  port _ := true
  imu _ := (true, { accel := ![0, 0, 9.80665], gyro := fun _ => 0, tempC := 25 })
  inbox k :=
    if k = 1 then [.timeSync ⟨0, [1008500, 1700000001009000000, 1700000001009100000]⟩] else []
  magneticField _ := some fun _ => 0
  health _ :=
    { sensorOnline := true, magOnline := true, primaryAck := true, primaryId := 0x6C
      alternateAck := false, alternateId := 0, readSuccesses := 0, readFailures := 0
      temperatureFailures := 0, initAttempts := 1 }
  accepts _ := true

/-- In the seventh iteration it publishes its odometry and the magnetic field. -/
theorem stamps_accurate_answered :
    ((nodeRun answeredBus none 7).outbox.filter fun p => p.message.stamp.isSome).length = 2 ∧
    ∀ p ∈ (nodeRun answeredBus none 7).outbox,
      Accurate 1700000000000000000 (nodeRun answeredBus none 7).acceptedUs p :=
  ⟨by decide +kernel, stamps_accurate answeredBus none 1700000000000000000 7 (by decide +kernel)⟩

/-! ### Periods -/

/-- The times at which publications on a topic were due, the latest first. -/
def RosNode.times (n : RosNode F) (topic : Topic) : List ℕ :=
  (n.outbox.filter fun p => p.message.topic = topic).map fun p => p.dueUs.toNat

/-- Every topic keeps its period. -/
def Spaced (n : RosNode F) : Prop :=
  ∀ topic, Periodic topic.periodUs.toNat (n.timer topic).toNat (n.times topic)

theorem Topic.periodUs_le (topic : Topic) : topic.periodUs.toNat ≤ 1000000 := by
  cases topic <;> decide

omit [Double F] in
/-- Of one turn a topic has at most one publication. -/
theorem filter_topic_cases {topics : List Topic} {new : List (Published F)}
    (hsub : (new.map fun p => p.message.topic).Sublist topics) (hnodup : topics.Nodup)
    (topic : Topic) :
    (new.filter fun p => p.message.topic = topic) = [] ∨
      topic ∈ topics ∧ ∃ p ∈ new, (new.filter fun p => p.message.topic = topic) = [p] := by
  have hdistinct : new.Pairwise fun p q => p.message.topic ≠ q.message.topic :=
    List.pairwise_map.mp (hnodup.sublist hsub)
  have hfiltered := hdistinct.sublist
    (List.filter_sublist (p := fun p => decide (p.message.topic = topic)))
  have hmem : ∀ p ∈ new.filter fun p => p.message.topic = topic,
      p ∈ new ∧ p.message.topic = topic := by
    intro p hp
    simpa using List.mem_filter.mp hp
  generalize new.filter (fun p => decide (p.message.topic = topic)) = found at hfiltered hmem ⊢
  match found with
  | [] => exact .inl rfl
  | [p] =>
    obtain ⟨hp, htopic⟩ := hmem p (by simp)
    have hin : topic ∈ topics := hsub.subset (List.mem_map.mpr ⟨p, hp, htopic⟩)
    exact .inr ⟨hin, p, hp, rfl⟩
  | p :: q :: _ =>
    have hp := (hmem p (by simp)).2
    have hq := (hmem q (by simp)).2
    have hne := (List.pairwise_cons.mp hfiltered).1 q (by simp)
    exact absurd (hp.trans hq.symm) hne

omit [Double F] in
/-- A turn keeps the periods. -/
theorem Spaced.fired (h : Spaced n) {topics : List Topic} {new : List (Published F)}
    (hfired : Fired n n' now topics new) (hnodup : topics.Nodup)
    (hothers : ∀ topic ∉ topics, n'.timer topic = n.timer topic)
    (hdue : ∀ p ∈ new, p.dueUs = now) (hroom : now.toNat + 1000000 < 2 ^ 64) : Spaced n' := by
  intro topic
  have htimes : n'.times topic =
      ((new.filter fun p => p.message.topic = topic).map fun p => p.dueUs.toNat) ++
        n.times topic := by
    rw [RosNode.times, hfired.outbox, List.filter_append, List.map_append]
    rfl
  rw [htimes]
  by_cases htopic : topic ∈ topics
  · obtain ⟨hwas, hnext⟩ := hfired.timer topic htopic
    have hperiod := topic.periodUs_le
    have hnext' : (n'.timer topic).toNat = now.toNat + topic.periodUs.toNat := by
      rw [hnext, UInt64.toNat_add]
      exact Nat.mod_eq_of_lt (by omega)
    rw [UInt64.le_iff_toNat_le] at hwas
    rw [hnext']
    rcases filter_topic_cases hfired.topics hnodup topic with hnone | ⟨-, p, hp, hone⟩
    · rw [hnone]
      exact (h topic).later (by omega)
    · rw [hone, List.map_singleton, List.singleton_append, hdue p hp]
      exact (h topic).fire hwas
  · rcases filter_topic_cases hfired.topics hnodup topic with hnone | ⟨hin, -⟩
    · rw [hnone, hothers topic htopic]
      exact h topic
    · exact absurd hin htopic

omit [Double F] in
theorem Spaced.congr (h : Spaced n) (houtbox : n'.outbox = n.outbox)
    (htimer : ∀ topic, n'.timer topic = n.timer topic) : Spaced n' := by
  intro topic
  rw [htimer, RosNode.times, houtbox]
  exact h topic

omit [Double F] in
theorem Spaced.turn (h : Spaced n) {topics : List Topic} (hturn : Turn n n' now topics)
    (hnodup : topics.Nodup) (hroom : now.toNat + 1000000 < 2 ^ 64) : Spaced n' := by
  rcases hturn.published with ⟨houtbox, htimer⟩ | ⟨new, hfired, hdated⟩
  · refine h.congr houtbox ?_
    intro topic
    by_cases htopic : topic ∈ topics
    · exact htimer topic htopic
    · exact hturn.others topic htopic
  · exact h.fired hfired hnodup hturn.others (fun p hp => (hdated p hp).due) hroom

omit [Double F] in
theorem SameHistory.timer (hsame : SameHistory n n') (topic : Topic) :
    n'.timer topic = n.timer topic := by
  cases topic <;>
    simp only [RosNode.timer, hsame.board, hsame.odomDue, hsame.imuDue, hsame.imuStatusDue]

omit [Double F] in
theorem nodeTimeSyncResponse_timer (env : NodeBus F) (n : RosNode F)
    (response : Int64MultiArray) (topic : Topic) :
    (nodeTimeSyncResponse env n response).timer topic = n.timer topic := by
  rw [nodeTimeSyncResponse]
  dsimp only
  have hboard : (readNode env n).2.board = n.board := rfl
  rw [hboard]
  rcases onTimeSync_cases n.board response (readNode env n).1 with hcall | ⟨_, _, _, -, -, hcall⟩
  all_goals
    rw [hcall]
    cases topic <;> rfl

omit [Double F] in
theorem Spaced.request (h : Spaced n)
    (hroom : (env.clock n.ros.wheels.ticks).toNat + 1000000 < 2 ^ 64) :
    Spaced (nodeTimeSyncUpdate env n) := by
  have hread : Spaced (readNode env n).2 := h.congr rfl (readNode_sameHistory env n).timer
  rw [nodeTimeSyncUpdate]
  dsimp only
  rw [timeSyncUpdate]
  split_ifs with hwait
  · exact hread
  · set now := (readNode env n).1 with hnow
    have hfired : Fired (readNode env n).2 (easypPublish env { (readNode env n).2 with
          board := { (readNode env n).2.board with
            nextRequestUs := now + requestPeriodUs
            clock := timeSyncStart (readNode env n).2.board.clock now } }
          ⟨now, now, now, .timeSyncRequest now⟩).2 now [.timeSyncRequest]
        [⟨now, now, now, .timeSyncRequest now⟩] := by
      refine ⟨?_, rfl, List.Sublist.refl _⟩
      intro topic htopic
      rw [List.mem_singleton.mp htopic]
      exact ⟨UInt64.not_lt.mp hwait, rfl⟩
    refine hread.fired hfired (List.nodup_singleton _) ?_ ?_ hroom
    · intro topic htopic
      cases topic
      case timeSyncRequest => exact absurd (List.mem_singleton.mpr rfl) htopic
      all_goals rfl
    · intro p hp
      rw [List.mem_singleton.mp hp]

theorem spaced_node (env : NodeBus F)
    (hclock : ∀ k, (env.clock k).toNat + 1000000 < 2 ^ 64) :
    NodeInvariant env Spaced (fun _ _ => True) where
  quiet _ _ hsame h := h.congr hsame.outbox hsame.timer
  response n response _ h := by
    refine h.congr ?_ (nodeTimeSyncResponse_timer env n response)
    rw [nodeTimeSyncResponse]
    rfl
  request n h := h.request (hclock _)
  publish n k himu _ _ h := by
    obtain ⟨n₁, n₂, hstatus, hodom, himuTurn⟩ := publishDue_turns n (env.clock k) himu
    exact ((h.turn hstatus (by decide) (hclock k)).turn hodom (by decide) (hclock k)).turn
      himuTurn (by decide) (hclock k)

theorem messagesMeet_true (env : NodeBus F) (n : RosNode F) (messages : List (NodeMessage F)) :
    MessagesMeet env (fun _ _ => True) n messages := by
  induction messages generalizing n with
  | nil => trivial
  | cons message messages ih =>
    refine ⟨?_, ih _⟩
    cases message <;> trivial

/-- **Every topic keeps its rate.**  While the clock is not about to wrap, two publications on a
topic are due at least its period apart, and in a window of `width` microseconds at most one
more of them is due than periods fit. -/
theorem publications_spaced (env : NodeBus F) (header : Option (CalibrationParameters F)) (N : ℕ)
    (hclock : ∀ k, (env.clock k).toNat + 1000000 < 2 ^ 64) (topic : Topic) :
    ((nodeRun env header N).times topic).Pairwise
        (fun later earlier => earlier + topic.periodUs.toNat ≤ later) ∧
      ∀ lo width, 0 < width →
        (((nodeRun env header N).times topic).filter
            fun t => lo ≤ t ∧ t < lo + width).length * topic.periodUs.toNat <
          width + topic.periodUs.toNat := by
  have hsetup : Spaced (nodeSetup env header) := fun _ => Periodic.nil
  have hspaced := ((spaced_node env hclock).run hsetup N
    fun k _ => messagesMeet_true env _ _).1 topic
  exact ⟨hspaced.apart, fun lo width hwidth => hspaced.window hwidth⟩

theorem answeredBus_clock (k : ℕ) : (answeredBus.clock k).toNat + 1000000 < 2 ^ 64 := by
  have hcap := min_le_right (500 * k) 1000000
  have hlt : 1000000 + min (500 * k) 1000000 < UInt64.size := by
    have hsize : UInt64.size = 18446744073709551616 := rfl
    omega
  have hvalue : (answeredBus.clock k).toNat = 1000000 + min (500 * k) 1000000 :=
    UInt64.toNat_ofNat_of_lt' hlt
  omega

/-- Two odometry messages, and at most fifty a second. -/
theorem publications_spaced_answered :
    let times := (nodeRun answeredBus none 12).times .odom
    times = [1055000, 1035000] ∧ (times.Pairwise fun later earlier => earlier + 20000 ≤ later) ∧
      (times.filter fun t => 1000000 ≤ t ∧ t < 1000000 + 1000000).length * 20000 <
        1000000 + 20000 := by
  intro times
  obtain ⟨hapart, hrate⟩ := publications_spaced answeredBus none 12 answeredBus_clock .odom
  exact ⟨by decide +kernel, hapart, hrate 1000000 1000000 (by norm_num)⟩

end Publications
