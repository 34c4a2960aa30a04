/-
Clock synchronisation over a network (`ros.c`, `time_sync_host.py`).

The board starts requests, the host answers what reaches it, and the network
delivers any request and any response any number of times, in any order, at any
later time, or never.  Host time is board time plus `θ`.  The world records every
request, every response and every acceptance.

* `SyncStep` — one step of the board, the host or the network;
* `SyncInvariant` — what holds between the board, the host and the messages;
* `synchronised_of_reaches` — in every world reached, the time is within half the round
  trip, it rests on a recent response to the request then outstanding, and no response
  counts twice.
-/
import Base101.TimeSync

open Arith64 Relation

/-- `std_msgs/Int64MultiArray`, with the field of its layout that is read. -/
structure Int64MultiArray where
  dataOffset : UInt32
  data : List Int64
  deriving DecidableEq

/-- The statics of `ros.c` that clock synchronisation uses. -/
structure SyncBoard where
  clock : TimeSync
  hostSeen : Bool
  lastHostResponseUs : UInt64
  nextRequestUs : UInt64
  deriving DecidableEq

/-- The callback of a response, and whether the response was accepted. -/
def onTimeSync (board : SyncBoard) (response : Int64MultiArray) (now : UInt64) :
    SyncBoard × Bool :=
  match response.data with
  | [echoedUs, hostReceiveNs, hostSendNs] =>
    if response.dataOffset != 0 then (board, false)
    else
      let (clock, accepted) :=
        (timeSyncAccept wrapping board.clock echoedUs hostReceiveNs hostSendNs now).run
      if accepted then
        ({ board with clock, hostSeen := true, lastHostResponseUs := now }, true)
      else ({ board with clock }, false)
  | _ => (board, false)

/-- `1000000u / TIME_SYNC_HZ`. -/
def requestPeriodUs : UInt64 := 1000000

/-- The periodic request, and the reading it publishes. -/
def timeSyncUpdate (board : SyncBoard) (now : UInt64) : SyncBoard × Option UInt64 :=
  if now < board.nextRequestUs then (board, none)
  else
    ({ board with nextRequestUs := now + requestPeriodUs
                  clock := timeSyncStart board.clock now }, some now)

/-- `on_request`: the response to a request, from the readings before and after.  A request
past the range of `int64` does not fit the message. -/
def onRequest (request : UInt64) (receivedNs sentNs : Int64) : Option Int64MultiArray :=
  if request.toNat < 2 ^ 63 then
    some { dataOffset := 0, data := [request.toInt64, receivedNs, sentNs] }
  else none

/-- A response that was accepted: which, when, and the latest request at that time. -/
structure Acceptance where
  response : ℕ
  atUs : UInt64
  latestUs : Option UInt64

/-- The board, the host and the network between them. -/
structure SyncWorld where
  board : SyncBoard
  /-- The board's time in nanoseconds, at the last step. -/
  nowNs : ℤ
  /-- The requests published, the latest first. -/
  requests : List UInt64
  /-- The request the host is answering, and its reading on receipt. -/
  serving : Option (UInt64 × Int64)
  /-- The responses published, in order. -/
  responses : List Int64MultiArray
  accepted : List Acceptance

/-- One step.  Readings of either clock are never before the last step. -/
inductive SyncStep (θ : ℤ) : SyncWorld → SyncWorld → Prop
  /-- Time passes. -/
  | pass (w : SyncWorld) (laterNs : ℤ) (hlater : w.nowNs ≤ laterNs) :
    SyncStep θ w { w with nowNs := laterNs }
  /-- The board starts and publishes a request. -/
  | start (w : SyncWorld) (localUs : UInt64) (nextRequestUs : UInt64)
      (hnow : w.nowNs ≤ 1000 * localUs.toNat)
      (hlater : ∀ request, w.requests.head? = some request → request < localUs) :
    SyncStep θ w
      { w with board := { w.board with clock := timeSyncStart w.board.clock localUs
                                       nextRequestUs }
               nowNs := 1000 * localUs.toNat, requests := localUs :: w.requests }
  /-- The host receives a request the board has published.  An answer still under way is one
  whose callback raised, and is never sent. -/
  | receive (w : SyncWorld) (request : UInt64) (readingNs : Int64)
      (hrequest : request ∈ w.requests) (hnow : w.nowNs + θ ≤ readingNs.toInt) :
    SyncStep θ w { w with nowNs := readingNs.toInt - θ, serving := some (request, readingNs) }
  /-- The host publishes the response, at its second reading. -/
  | respond (w : SyncWorld) (request : UInt64) (receivedNs sentNs : Int64)
      (response : Int64MultiArray) (hserving : w.serving = some (request, receivedNs))
      (hnow : w.nowNs + θ ≤ sentNs.toInt)
      (hresponse : onRequest request receivedNs sentNs = some response) :
    SyncStep θ w
      { w with nowNs := sentNs.toInt - θ, serving := none
               responses := w.responses ++ [response] }
  /-- A response reaches the board. -/
  | deliver (w : SyncWorld) (i : ℕ) (response : Int64MultiArray) (localUs : UInt64)
      (hresponse : w.responses[i]? = some response) (hnow : w.nowNs ≤ 1000 * localUs.toNat) :
    SyncStep θ w
      { w with board := (onTimeSync w.board response localUs).1
               nowNs := 1000 * localUs.toNat
               accepted := if (onTimeSync w.board response localUs).2 then
                 w.accepted ++ [⟨i, localUs, w.requests.head?⟩] else w.accepted }

/-- The board after `time_sync_init`, with nothing sent. -/
def initialWorld (maxRttUs : UInt32) (timeoutUs : UInt64) : SyncWorld where
  board :=
    { clock := (timeSyncInit wrapping maxRttUs timeoutUs).run
      hostSeen := false, lastHostResponseUs := 0, nextRequestUs := 0 }
  nowNs := 0
  requests := []
  serving := none
  responses := []
  accepted := []

/-- The worlds that runs from `time_sync_init` reach. -/
def SyncReaches (θ : ℤ) (maxRttUs : UInt32) (timeoutUs : UInt64) (w : SyncWorld) : Prop :=
  ReflTransGen (SyncStep θ) (initialWorld maxRttUs timeoutUs) w

/-! ### The board's calls -/

/-- A response to `request`, read at `receivedNs` and `sentNs`. -/
theorem onRequest_eq_some {request : UInt64} {receivedNs sentNs : Int64}
    {response : Int64MultiArray} (h : onRequest request receivedNs sentNs = some response) :
    ∃ echoedUs : Int64, response = ⟨0, [echoedUs, receivedNs, sentNs]⟩ ∧
      echoedUs.toInt = request.toNat := by
  unfold onRequest at h
  by_cases hfits : request.toNat < 2 ^ 63
  · rw [if_pos hfits] at h
    exact ⟨request.toInt64, (Option.some.inj h).symm, toInt_toInt64_of_lt hfits⟩
  · rw [if_neg hfits] at h
    exact absurd h (by simp)

/-- What the callback does with a response of the host. -/
theorem onTimeSync_eq (board : SyncBoard) (echoedUs receivedNs sentNs : Int64) (now : UInt64) :
    (Accepts board.clock echoedUs receivedNs sentNs now ∧
      onTimeSync board ⟨0, [echoedUs, receivedNs, sentNs]⟩ now =
        ({ board with clock := acceptedClock board.clock receivedNs sentNs now
                      hostSeen := true, lastHostResponseUs := now }, true)) ∨
    onTimeSync board ⟨0, [echoedUs, receivedNs, sentNs]⟩ now = (board, false) := by
  have hcall := timeSyncAccept_eq wrapping_sound board.clock echoedUs receivedNs sentNs now
  by_cases h : Accepts board.clock echoedUs receivedNs sentNs now
  · left
    refine ⟨h, ?_⟩
    simp only [onTimeSync, hcall.1 h]
    rfl
  · right
    simp only [onTimeSync, hcall.2 h]
    rfl

/-! ### The invariant -/

/-- `response` answers one of the requests, with the host's readings between the request and
the last step. -/
def AnswersOne (θ : ℤ) (w : SyncWorld) (response : Int64MultiArray) : Prop :=
  ∃ request ∈ w.requests, ∃ echoedUs receivedNs sentNs : Int64,
    response = ⟨0, [echoedUs, receivedNs, sentNs]⟩ ∧ echoedUs.toInt = request.toNat ∧
    1000 * request.toNat + θ ≤ receivedNs.toInt ∧ receivedNs.toInt ≤ sentNs.toInt ∧
    sentNs.toInt ≤ w.nowNs + θ

/-- The accepted response echoes the request that was the latest. -/
def MatchesLatest (w : SyncWorld) (a : Acceptance) : Prop :=
  ∃ (request : UInt64) (echoedUs receivedNs sentNs : Int64),
    a.latestUs = some request ∧ request ∈ w.requests ∧
    w.responses[a.response]? = some ⟨0, [echoedUs, receivedNs, sentNs]⟩ ∧
    echoedUs.toInt = request.toNat

/-- What holds between the board, the host and the messages. -/
structure SyncInvariant (θ : ℤ) (maxRttUs : UInt32) (timeoutUs : UInt64) (w : SyncWorld) :
    Prop where
  bounded : OffsetBounded w.board.clock
  maxRtt : w.board.clock.maxRttNs.toNat = maxRttUs.toNat * 1000
  timeout : w.board.clock.timeoutUs = timeoutUs
  /-- The board waits for the latest request, which is later than all the others. -/
  latest : w.requests ≠ [] → w.requests.head? = some w.board.clock.requestUs
  increasing : w.requests.Pairwise (fun later earlier => earlier < later)
  pending : w.board.clock.pending = true → w.requests ≠ [] ∧
    ∀ a ∈ w.accepted, a.latestUs ≠ some w.board.clock.requestUs
  published : ∀ request ∈ w.requests, 1000 * (request.toNat : ℤ) ≤ w.nowNs
  serving : ∀ (request : UInt64) (receivedNs : Int64), w.serving = some (request, receivedNs) →
    request ∈ w.requests ∧ 1000 * request.toNat + θ ≤ receivedNs.toInt ∧
      receivedNs.toInt ≤ w.nowNs + θ
  answered : ∀ response ∈ w.responses, AnswersOne θ w response
  matched : ∀ a ∈ w.accepted, MatchesLatest w a
  once : (w.accepted.map (·.latestUs)).Nodup
  accurate : w.board.clock.synced = true →
    |w.board.clock.offsetNs.toInt - θ| ≤ (maxRttUs.toNat * 1000 + 1) / 2 ∧
    ∃ a ∈ w.accepted, a.atUs = w.board.clock.lastSyncUs

theorem syncInvariant_init (θ : ℤ) (maxRttUs : UInt32) (timeoutUs : UInt64) :
    SyncInvariant θ maxRttUs timeoutUs (initialWorld maxRttUs timeoutUs) := by
  have hclock : (initialWorld maxRttUs timeoutUs).board.clock = initialClock maxRttUs timeoutUs :=
    rfl
  have hlt := maxRttUs.toNat_lt
  constructor
  case bounded =>
    rw [hclock]
    constructor <;> simp [initialClock]
  case maxRtt =>
    rw [hclock]
    have hval := @toNat_mul_thousand maxRttUs.toUInt64 (by
      rw [UInt32.toNat_toUInt64]
      omega)
    rw [UInt32.toNat_toUInt64] at hval
    exact hval
  case timeout => rfl
  case latest => intro h; exact absurd rfl h
  case increasing => exact List.Pairwise.nil
  case pending => intro h; exact absurd h (by simp [hclock, initialClock])
  case published => intro request h; exact absurd h (by simp [initialWorld])
  case serving => intro request receivedNs h; exact absurd h (by simp [initialWorld])
  case answered => intro response h; exact absurd h (by simp [initialWorld])
  case matched => intro a h; exact absurd h (by simp [initialWorld])
  case once => exact List.nodup_nil
  case accurate => intro h; exact absurd h (by simp [hclock, initialClock])

/-! ### One step -/

variable {θ : ℤ} {maxRttUs : UInt32} {timeoutUs : UInt64} {w w' : SyncWorld}

theorem AnswersOne.mono {response : Int64MultiArray} (h : AnswersOne θ w response)
    (hrequests : w.requests ⊆ w'.requests) (hnow : w.nowNs ≤ w'.nowNs) :
    AnswersOne θ w' response := by
  obtain ⟨request, hmem, e, r, s, hdata, hecho, hsent, hordered, hbefore⟩ := h
  exact ⟨request, hrequests hmem, e, r, s, hdata, hecho, hsent, hordered, by omega⟩

theorem MatchesLatest.mono {a : Acceptance} (h : MatchesLatest w a)
    (hrequests : w.requests ⊆ w'.requests) (hresponses : w.responses <+: w'.responses) :
    MatchesLatest w' a := by
  obtain ⟨request, e, r, s, hlatest, hmem, hresponse, hecho⟩ := h
  obtain ⟨more, hmore⟩ := hresponses
  refine ⟨request, e, r, s, hlatest, hrequests hmem, ?_, hecho⟩
  rw [← hmore]
  have hlen : a.response < w.responses.length := (List.getElem?_eq_some_iff.mp hresponse).choose
  rw [List.getElem?_append_left hlen]
  exact hresponse

/-- Steps that leave the board and the acceptances alone: the readings already taken stay in
the past, and the messages already sent stay. -/
theorem SyncInvariant.frame (h : SyncInvariant θ maxRttUs timeoutUs w)
    (hboard : w'.board = w.board) (hrequests : w'.requests = w.requests)
    (haccepted : w'.accepted = w.accepted) (hresponses : w.responses <+: w'.responses)
    (hnow : w.nowNs ≤ w'.nowNs)
    (hserving : ∀ (request : UInt64) (receivedNs : Int64),
      w'.serving = some (request, receivedNs) →
      request ∈ w'.requests ∧ 1000 * request.toNat + θ ≤ receivedNs.toInt ∧
        receivedNs.toInt ≤ w'.nowNs + θ)
    (hanswered : ∀ response ∈ w'.responses, AnswersOne θ w' response) :
    SyncInvariant θ maxRttUs timeoutUs w' := by
  constructor
  case bounded => rw [hboard]; exact h.bounded
  case maxRtt => rw [hboard]; exact h.maxRtt
  case timeout => rw [hboard]; exact h.timeout
  case latest => rw [hboard, hrequests]; exact h.latest
  case increasing => rw [hrequests]; exact h.increasing
  case pending => rw [hboard, hrequests, haccepted]; exact h.pending
  case published =>
    rw [hrequests]
    intro request hmem
    have hpast := h.published request hmem
    omega
  case serving => exact hserving
  case answered => exact hanswered
  case matched =>
    rw [haccepted]
    intro a ha
    exact (h.matched a ha).mono (by rw [hrequests]; exact List.Subset.refl _) hresponses
  case once => rw [haccepted]; exact h.once
  case accurate => rw [hboard, haccepted]; exact h.accurate

theorem syncInvariant_pass (h : SyncInvariant θ maxRttUs timeoutUs w) {laterNs : ℤ}
    (hlater : w.nowNs ≤ laterNs) :
    SyncInvariant θ maxRttUs timeoutUs { w with nowNs := laterNs } := by
  refine h.frame rfl rfl rfl (List.prefix_refl _) hlater ?_ ?_
  · intro request receivedNs hserving
    obtain ⟨hmem, hsent, hbefore⟩ := h.serving request receivedNs hserving
    exact ⟨hmem, hsent, by show _ ≤ laterNs + θ; omega⟩
  · intro response hmem
    exact (h.answered response hmem).mono (List.Subset.refl _) hlater

theorem syncInvariant_receive (h : SyncInvariant θ maxRttUs timeoutUs w) {request : UInt64}
    {readingNs : Int64} (hrequest : request ∈ w.requests)
    (hnow : w.nowNs + θ ≤ readingNs.toInt) :
    SyncInvariant θ maxRttUs timeoutUs
      { w with nowNs := readingNs.toInt - θ, serving := some (request, readingNs) } := by
  have hlater : w.nowNs ≤ readingNs.toInt - θ := by omega
  refine h.frame rfl rfl rfl (List.prefix_refl _) hlater ?_ ?_
  · intro request' receivedNs hserving
    obtain ⟨rfl, rfl⟩ := Prod.mk.inj (Option.some.inj hserving)
    have hpast := h.published request hrequest
    refine ⟨hrequest, by omega, ?_⟩
    show readingNs.toInt ≤ readingNs.toInt - θ + θ
    omega
  · intro response hmem
    exact (h.answered response hmem).mono (List.Subset.refl _) hlater

theorem syncInvariant_respond (h : SyncInvariant θ maxRttUs timeoutUs w) {request : UInt64}
    {receivedNs sentNs : Int64} {response : Int64MultiArray}
    (hserving : w.serving = some (request, receivedNs)) (hnow : w.nowNs + θ ≤ sentNs.toInt)
    (hresponse : onRequest request receivedNs sentNs = some response) :
    SyncInvariant θ maxRttUs timeoutUs
      { w with nowNs := sentNs.toInt - θ, serving := none
               responses := w.responses ++ [response] } := by
  have hlater : w.nowNs ≤ sentNs.toInt - θ := by omega
  refine h.frame rfl rfl rfl (List.prefix_append _ _) hlater ?_ ?_
  · intro request' receivedNs' hnone
    exact absurd hnone (by simp)
  · intro response' hmem
    rcases List.mem_append.mp hmem with hmem | hmem
    · exact (h.answered response' hmem).mono (List.Subset.refl _) hlater
    · -- the response just published
      rw [List.mem_singleton] at hmem
      subst hmem
      obtain ⟨hrequest, hsent, hbefore⟩ := h.serving request receivedNs hserving
      obtain ⟨echoedUs, hdata, hecho⟩ := onRequest_eq_some hresponse
      refine ⟨request, hrequest, echoedUs, receivedNs, sentNs, hdata, hecho, hsent, by omega, ?_⟩
      show sentNs.toInt ≤ sentNs.toInt - θ + θ
      omega

theorem syncInvariant_start (h : SyncInvariant θ maxRttUs timeoutUs w) {localUs : UInt64}
    (nextRequestUs : UInt64) (hnow : w.nowNs ≤ 1000 * localUs.toNat)
    (hlater : ∀ request, w.requests.head? = some request → request < localUs) :
    SyncInvariant θ maxRttUs timeoutUs
      { w with board := { w.board with clock := timeSyncStart w.board.clock localUs
                                       nextRequestUs }
               nowNs := 1000 * localUs.toNat, requests := localUs :: w.requests } := by
  -- the new request is later than all the others, not only than the latest
  have hnewest : ∀ request ∈ w.requests, request < localUs := by
    intro request hmem
    rcases hreqs : w.requests with _ | ⟨latest, others⟩
    · rw [hreqs] at hmem
      exact absurd hmem (by simp)
    have hlatest : latest < localUs := hlater latest (by rw [hreqs]; rfl)
    have hsorted := h.increasing
    rw [hreqs] at hmem hsorted
    rcases List.mem_cons.mp hmem with rfl | hother
    · exact hlatest
    · exact UInt64.lt_trans ((List.pairwise_cons.mp hsorted).1 request hother) hlatest
  have hsubset : w.requests ⊆ localUs :: w.requests := List.subset_cons_self _ _
  constructor
  case bounded => exact h.bounded
  case maxRtt => exact h.maxRtt
  case timeout => exact h.timeout
  case latest => intro _; rfl
  case increasing => exact List.pairwise_cons.mpr ⟨hnewest, h.increasing⟩
  case pending =>
    intro _
    refine ⟨by simp, ?_⟩
    intro a ha hlatest
    -- every acceptance was for a request started before this one
    obtain ⟨request, -, -, -, hlatest', hmem, -⟩ := h.matched a ha
    rw [hlatest] at hlatest'
    have hsame : localUs = request := Option.some.inj hlatest'
    have hlt := hnewest request hmem
    rw [← hsame] at hlt
    exact UInt64.lt_irrefl _ hlt
  case published =>
    intro request hmem
    show 1000 * (request.toNat : ℤ) ≤ 1000 * localUs.toNat
    rcases List.mem_cons.mp hmem with rfl | hmem
    · omega
    · have hpast := h.published request hmem
      omega
  case serving =>
    intro request receivedNs hserving
    obtain ⟨hmem, hsent, hbefore⟩ := h.serving request receivedNs hserving
    refine ⟨hsubset hmem, hsent, ?_⟩
    show receivedNs.toInt ≤ 1000 * localUs.toNat + θ
    omega
  case answered =>
    intro response hmem
    exact (h.answered response hmem).mono hsubset hnow
  case matched =>
    intro a ha
    exact (h.matched a ha).mono hsubset (List.prefix_refl _)
  case once => exact h.once
  case accurate => exact h.accurate

/-- **The estimate is within half the round trip**: the host's second reading was taken between
the request and the receipt, and half the network time splits the rest. -/
theorem Accepts.accurate {clock : TimeSync} {echoedUs receivedNs sentNs : Int64}
    {localUs : UInt64} (h : Accepts clock echoedUs receivedNs sentNs localUs)
    (hreceived : 1000 * clock.requestUs.toNat + θ ≤ receivedNs.toInt)
    (hsent : sentNs.toInt ≤ 1000 * localUs.toNat + θ) :
    |estimatedOffset clock receivedNs sentNs localUs - θ| ≤ (clock.maxRttNs.toNat + 1) / 2 := by
  have hprompt := h.prompt
  have hprocessed := h.processed
  have hordered := h.sent
  rw [estimatedOffset]
  rw [networkNs] at hprocessed ⊢
  rw [abs_le]
  constructor
  · omega
  · omega

theorem syncInvariant_deliver (h : SyncInvariant θ maxRttUs timeoutUs w) {i : ℕ}
    {response : Int64MultiArray} {localUs : UInt64} (hresponse : w.responses[i]? = some response)
    (hnow : w.nowNs ≤ 1000 * localUs.toNat) :
    SyncInvariant θ maxRttUs timeoutUs
      { w with board := (onTimeSync w.board response localUs).1
               nowNs := 1000 * localUs.toNat
               accepted := if (onTimeSync w.board response localUs).2 then
                 w.accepted ++ [⟨i, localUs, w.requests.head?⟩] else w.accepted } := by
  obtain ⟨request, hrequest, e, r, s, rfl, hecho, hreceived, hordered, hsent⟩ :=
    h.answered response (List.mem_of_getElem? hresponse)
  have hserving : ∀ (request : UInt64) (receivedNs : Int64),
      w.serving = some (request, receivedNs) → request ∈ w.requests ∧
        1000 * request.toNat + θ ≤ receivedNs.toInt ∧
        receivedNs.toInt ≤ 1000 * localUs.toNat + θ := by
    intro request receivedNs hs
    obtain ⟨hmem, hsent', hbefore⟩ := h.serving request receivedNs hs
    exact ⟨hmem, hsent', by omega⟩
  rcases onTimeSync_eq w.board e r s localUs with ⟨haccepts, hcall⟩ | hcall
  · rw [hcall]
    -- the response echoes the latest request, which nothing has answered yet
    obtain ⟨hnonempty, hunanswered⟩ := h.pending haccepts.pending
    have hlatest := h.latest hnonempty
    have hsame : request = w.board.clock.requestUs := by
      have hechoed := haccepts.echoed
      rw [hecho] at hechoed
      exact UInt64.toNat_inj.mp (by omega)
    have hoffset := haccepts.toInt_offset
    constructor
    case bounded =>
      rw [OffsetBounded, hoffset]
      exact haccepts.estimate_bounds
    case maxRtt => exact h.maxRtt
    case timeout => exact h.timeout
    case latest => exact h.latest
    case increasing => exact h.increasing
    case pending => intro hpending; exact absurd hpending (by simp [acceptedClock])
    case published =>
      intro request' hmem
      have hpast := h.published request' hmem
      show 1000 * (request'.toNat : ℤ) ≤ 1000 * localUs.toNat
      omega
    case serving => exact hserving
    case answered =>
      intro response hmem
      exact (h.answered response hmem).mono (List.Subset.refl _) hnow
    case matched =>
      intro a ha
      rcases List.mem_append.mp ha with ha | ha
      · exact (h.matched a ha).mono (List.Subset.refl _) (List.prefix_refl _)
      · rw [List.mem_singleton] at ha
        subst ha
        exact ⟨request, e, r, s, by rw [hsame]; exact hlatest, hrequest, hresponse, hecho⟩
    case once =>
      show ((w.accepted ++ [(⟨i, localUs, w.requests.head?⟩ : Acceptance)]).map
        (·.latestUs)).Nodup
      rw [List.map_append, List.map_singleton, ← List.concat_eq_append, List.nodup_concat]
      refine ⟨?_, h.once⟩
      intro hmem
      obtain ⟨a, ha, hlatest'⟩ := List.mem_map.mp hmem
      exact hunanswered a ha (by rw [hlatest', hlatest])
    case accurate =>
      intro _
      have hclose := haccepts.accurate (by rw [← hsame]; exact hreceived) (by omega)
      rw [h.maxRtt] at hclose
      rw [hoffset]
      refine ⟨by exact_mod_cast hclose, ⟨i, localUs, w.requests.head?⟩, by simp, rfl⟩
  · rw [hcall]
    refine h.frame rfl rfl rfl (List.prefix_refl _) hnow hserving ?_
    intro response hmem
    exact (h.answered response hmem).mono (List.Subset.refl _) hnow

/-- Every step keeps the invariant. -/
theorem syncInvariant_step (h : SyncInvariant θ maxRttUs timeoutUs w) (hstep : SyncStep θ w w') :
    SyncInvariant θ maxRttUs timeoutUs w' := by
  cases hstep with
  | pass laterNs hlater => exact syncInvariant_pass h hlater
  | start localUs nextRequestUs hnow hlater =>
    exact syncInvariant_start h nextRequestUs hnow hlater
  | receive request readingNs hrequest hnow => exact syncInvariant_receive h hrequest hnow
  | respond request receivedNs sentNs response hserving hnow hresponse =>
    exact syncInvariant_respond h hserving hnow hresponse
  | deliver i response localUs hresponse hnow => exact syncInvariant_deliver h hresponse hnow

theorem syncInvariant_of_reaches (h : SyncReaches θ maxRttUs timeoutUs w) :
    SyncInvariant θ maxRttUs timeoutUs w := by
  induction h with
  | refl => exact syncInvariant_init θ maxRttUs timeoutUs
  | tail _ hstep ih => exact syncInvariant_step ih hstep

/-! ### Every world reached -/

/-- What clock synchronisation promises of a world. -/
structure Synchronised (θ : ℤ) (maxRttUs : UInt32) (timeoutUs : UInt64) (w : SyncWorld) :
    Prop where
  /-- A time is within half the round trip of the host's, and rests on a response accepted less
  than the timeout before, which matched the latest request of its time. -/
  accurate (t : UInt64) (ns : Int64) : (timeSyncTime wrapping w.board.clock t).run = some ns →
    |ns.toInt - (1000 * t.toNat + θ)| ≤ (maxRttUs.toNat * 1000 + 1) / 2 ∧
    ∃ a ∈ w.accepted, a.atUs.toNat ≤ t.toNat ∧ t.toNat < a.atUs.toNat + timeoutUs.toNat ∧
      MatchesLatest w a
  /-- No response is accepted after a newer request has been started. -/
  matched : ∀ a ∈ w.accepted, MatchesLatest w a
  /-- No response is accepted twice. -/
  once : (w.accepted.map (·.response)).Nodup

/-- Acceptances of one response answer one request. -/
theorem MatchesLatest.latest_eq {a b : Acceptance} (ha : MatchesLatest w a)
    (hb : MatchesLatest w b) (hsame : a.response = b.response) : a.latestUs = b.latestUs := by
  obtain ⟨request, e, r, s, hlatest, -, hresponse, hecho⟩ := ha
  obtain ⟨request', e', r', s', hlatest', -, hresponse', hecho'⟩ := hb
  rw [hsame, hresponse'] at hresponse
  have hdata : e' = e := by
    have hfields := Option.some.inj hresponse
    simp only [Int64MultiArray.mk.injEq, List.cons.injEq, true_and] at hfields
    exact hfields.1
  rw [hlatest, hlatest']
  congr 1
  apply UInt64.toNat_inj.mp
  rw [hdata] at hecho'
  omega

/-- **Clock synchronisation is accurate whatever the network does.** -/
theorem synchronised_of_reaches (h : SyncReaches θ maxRttUs timeoutUs w) :
    Synchronised θ maxRttUs timeoutUs w := by
  have hinv := syncInvariant_of_reaches h
  constructor
  case accurate =>
    intro t ns htime
    by_cases havailable : TimeAvailable w.board.clock t
    · rw [(timeSyncTime_eq wrapping_sound hinv.bounded t).1 havailable] at htime
      have hns : ns.toInt = t.toNat * 1000 + w.board.clock.offsetNs.toInt := by
        rw [← Option.some.inj htime]
        exact havailable.toInt_estimate
      obtain ⟨hclose, a, ha, hat⟩ := hinv.accurate havailable.synced
      have hafter := havailable.after
      have hfresh := havailable.fresh
      rw [← hat] at hafter hfresh
      rw [hinv.timeout] at hfresh
      refine ⟨?_, a, ha, hafter, hfresh, hinv.matched a ha⟩
      have hdiff : ns.toInt - (1000 * t.toNat + θ) = w.board.clock.offsetNs.toInt - θ := by
        rw [hns]
        omega
      rw [hdiff]
      exact hclose
    · rw [(timeSyncTime_eq wrapping_sound hinv.bounded t).2 havailable] at htime
      exact absurd htime (by simp [Id.run])
  case matched => exact hinv.matched
  case once =>
    -- a response accepted twice would have answered one request twice
    have honce := hinv.once
    rw [List.Nodup, List.pairwise_map] at honce ⊢
    refine List.Pairwise.imp_of_mem ?_ honce
    intro a b ha hb hne hsame
    exact hne ((hinv.matched a ha).latest_eq (hinv.matched b hb) hsame)

/-- The exchange of the unit test: two milliseconds each way, one on the host. -/
theorem syncReaches_test : ∃ w : SyncWorld, SyncReaches 1700000000000000000 20000 10000000 w ∧
    w.accepted.length = 1 ∧
    (timeSyncTime wrapping w.board.clock 1105000).run = some 1700000001105000000 := by
  refine ⟨_, (((ReflTransGen.refl.tail
    (.start _ 1000000 2000000 (by decide) (by simp [initialWorld]))).tail
    (.receive _ 1000000 1700000001002000000 (by simp) (by decide))).tail
    (.respond _ 1000000 1700000001002000000 1700000001003000000
      ⟨0, [1000000, 1700000001002000000, 1700000001003000000]⟩ rfl (by decide) rfl)).tail
    (.deliver _ 0 ⟨0, [1000000, 1700000001002000000, 1700000001003000000]⟩ 1005000 rfl
      (by decide)), ?_, ?_⟩
  · rfl
  · rfl

theorem synchronised_test : ∃ w : SyncWorld, SyncReaches 1700000000000000000 20000 10000000 w ∧
    (timeSyncTime wrapping w.board.clock 1105000).run = some 1700000001105000000 ∧
    Synchronised 1700000000000000000 20000 10000000 w := by
  obtain ⟨w, hreaches, -, htime⟩ := syncReaches_test
  exact ⟨w, hreaches, htime, synchronised_of_reaches hreaches⟩
