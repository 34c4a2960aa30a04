/-
Clock synchronisation on the board (`time_sync.c`, and its use in `ros.c`).

The functions are written over an `Arith64`: with `wrapping` they are the code
that runs, with `checked` they also say whether an operation left its range.

* `timeSyncAccept_eq` — an exchange is accepted when its stamps meet `Accepts`, as integers,
  and a rejected one changes nothing;
* `timeSyncTime_eq` — the time is `local + offset` where that is in range;
* `time_sync_arithmetic` — in every clock reached, no operation of any call is inexact and
  every stamp is the time it stands for.
-/
import Base101.Arith64
import Base101.Clock

open Arith64

/-- `time_sync_t`. -/
structure TimeSync where
  requestUs : UInt64
  lastSyncUs : UInt64
  maxRttNs : UInt64
  timeoutUs : UInt64
  offsetNs : Int64
  pending : Bool
  synced : Bool
  deriving DecidableEq

/-- `builtin_interfaces/Time`. -/
structure RosTime where
  sec : Int32
  nanosec : UInt32
  deriving DecidableEq

/-- `MAX_ROS_NS`. -/
def maxRosNs : Int64 := 2147483647999999999
/-- `INT64_MAX`. -/
def int64Max : Int64 := 9223372036854775807
/-- `(uint64_t)INT64_MAX / 1000u`. -/
def maxLocalUs : UInt64 := 9223372036854775

section Model

variable {m : Type → Type} [Monad m] (A : Arith64 m)

def timeSyncInit (maxRttUs : UInt32) (timeoutUs : UInt64) : m TimeSync := do
  let maxRttNs ← A.mul maxRttUs.toUInt64 1000
  return { requestUs := 0, lastSyncUs := 0, maxRttNs, timeoutUs, offsetNs := 0
           pending := false, synced := false }

def timeSyncStart (clock : TimeSync) (localUs : UInt64) : TimeSync :=
  { clock with requestUs := localUs, pending := true }

def timeSyncAccept (clock : TimeSync) (echoedUs hostReceiveNs hostSendNs : Int64)
    (localReceiveUs : UInt64) : m (TimeSync × Bool) := do
  if !clock.pending || echoedUs < 0 then
    return (clock, false)
  if (← A.unsigned echoedUs) != clock.requestUs || localReceiveUs < clock.requestUs ||
      localReceiveUs > maxLocalUs || hostReceiveNs ≤ 0 || hostSendNs < hostReceiveNs ||
      hostSendNs > maxRosNs then
    return (clock, false)
  let elapsedNs ← A.mul (← A.sub localReceiveUs clock.requestUs) 1000
  let processingNs ← A.unsigned (← A.subS hostSendNs hostReceiveNs)
  -- delayed responses, including long host scheduling stalls
  if elapsedNs > clock.maxRttNs || processingNs > elapsedNs then
    return (clock, false)
  let networkNs ← A.sub elapsedNs processingNs
  let halfNetworkNs ← A.signed (networkNs / 2)
  if hostSendNs > (← A.subS maxRosNs halfNetworkNs) then
    return (clock, false)
  -- the host's time when the board received, on paths of equal length
  let hostNowNs ← A.addS hostSendNs halfNetworkNs
  let offsetNs ← A.subS hostNowNs (← A.signed (← A.mul localReceiveUs 1000))
  return ({ clock with offsetNs, lastSyncUs := localReceiveUs, synced := true,
                       pending := false }, true)

/-- The time, or `none` where the call returns false and leaves `*ros_ns` alone. -/
def timeSyncTime (clock : TimeSync) (localUs : UInt64) : m (Option Int64) := do
  if !clock.synced || localUs < clock.lastSyncUs then
    return none
  if (← A.sub localUs clock.lastSyncUs) ≥ clock.timeoutUs || localUs > maxLocalUs then
    return none
  let localNs ← A.signed (← A.mul localUs 1000)
  if clock.offsetNs > 0 then
    if localNs > (← A.subS int64Max clock.offsetNs) then
      return none
  let estimate ← A.addS localNs clock.offsetNs
  if estimate < 0 || estimate > maxRosNs then
    return none
  return some estimate

def stampAt (clock : TimeSync) (monotonicUs : UInt64) : m (Option RosTime) := do
  match ← timeSyncTime A clock monotonicUs with
  | none => return none
  | some ns =>
    let sec ← A.signed32 (ns / 1000000000)
    let nanosec ← A.unsigned32 (ns % 1000000000)
    return some { sec, nanosec }

end Model

/-! ### What the calls compute -/

/-- The exchange answers the pending request, with stamps in range. -/
structure Answers (clock : TimeSync) (echoedUs hostReceiveNs hostSendNs : Int64)
    (localReceiveUs : UInt64) : Prop where
  pending : clock.pending = true
  echoed : echoedUs.toInt = clock.requestUs.toNat
  ordered : clock.requestUs.toNat ≤ localReceiveUs.toNat
  inRange : localReceiveUs.toNat ≤ 9223372036854775
  received : 0 < hostReceiveNs.toInt
  sent : hostReceiveNs.toInt ≤ hostSendNs.toInt
  sentInRange : hostSendNs.toInt ≤ 2147483647999999999

/-- The time on the network, as the board and the host measure it. -/
def networkNs (clock : TimeSync) (hostReceiveNs hostSendNs : Int64) (localReceiveUs : UInt64) :
    ℤ :=
  (localReceiveUs.toNat - clock.requestUs.toNat) * 1000 - (hostSendNs.toInt - hostReceiveNs.toInt)

/-- The exchange is accepted, in terms of its stamps as integers. -/
structure Accepts (clock : TimeSync) (echoedUs hostReceiveNs hostSendNs : Int64)
    (localReceiveUs : UInt64) : Prop
    extends Answers clock echoedUs hostReceiveNs hostSendNs localReceiveUs where
  prompt : ((localReceiveUs.toNat - clock.requestUs.toNat) * 1000 : ℤ) ≤ clock.maxRttNs.toNat
  processed : 0 ≤ networkNs clock hostReceiveNs hostSendNs localReceiveUs
  room : hostSendNs.toInt + networkNs clock hostReceiveNs hostSendNs localReceiveUs / 2 ≤
    2147483647999999999

/-- The offset an exchange estimates: the host's time at the board's receipt, less the
board's. -/
def estimatedOffset (clock : TimeSync) (hostReceiveNs hostSendNs : Int64)
    (localReceiveUs : UInt64) : ℤ :=
  hostSendNs.toInt + networkNs clock hostReceiveNs hostSendNs localReceiveUs / 2 -
    localReceiveUs.toNat * 1000

/-- The clock after an accepted exchange. -/
def acceptedClock (clock : TimeSync) (hostReceiveNs hostSendNs : Int64)
    (localReceiveUs : UInt64) : TimeSync :=
  { clock with offsetNs := .ofInt (estimatedOffset clock hostReceiveNs hostSendNs localReceiveUs)
               lastSyncUs := localReceiveUs, synced := true, pending := false }

@[simp] theorem toInt_maxRosNs : maxRosNs.toInt = 2147483647999999999 := rfl

@[simp] theorem toInt_int64Max : int64Max.toInt = 9223372036854775807 := rfl

@[simp] theorem toNat_maxLocalUs : maxLocalUs.toNat = 9223372036854775 := rfl

theorem toNat_thousand : (1000 : UInt64).toNat = 1000 := rfl

variable {m : Type → Type} [Monad m] [LawfulMonad m] {A : Arith64 m} {clock : TimeSync}
  {echoedUs hostReceiveNs hostSendNs : Int64} {localReceiveUs : UInt64}

/-- Microseconds in range fit in nanoseconds. -/
theorem toNat_mul_thousand {us : UInt64} (h : us.toNat ≤ 9223372036854775) :
    (us * 1000).toNat = us.toNat * 1000 := by
  have hmul : us.toNat * (1000 : UInt64).toNat < 2 ^ 64 := by
    rw [toNat_thousand]
    omega
  have hval := toNat_mul_of_lt hmul
  rw [toNat_thousand] at hval
  omega

omit [LawfulMonad m] in
theorem sound_mul_thousand (hA : A.Sound) {us : UInt64} (h : us.toNat ≤ 9223372036854775) :
    A.mul us 1000 = pure (us * 1000) := by
  apply hA.mul
  rw [toNat_thousand]
  omega

omit [Monad m] [LawfulMonad m] in
/-- The first guard of `time_sync_accept`. -/
theorem acceptGuard_iff : (!clock.pending || decide (echoedUs < 0)) = false ↔
    clock.pending = true ∧ 0 ≤ echoedUs.toInt := by
  simp only [Bool.or_eq_false_iff, Bool.not_eq_false', decide_eq_false_iff_not,
    Int64.lt_iff_toInt_lt, Int64.toInt_zero, not_lt]

/-- The second guard. -/
theorem acceptGuard_iff' (hecho : 0 ≤ echoedUs.toInt) :
    (echoedUs.toUInt64 != clock.requestUs || decide (localReceiveUs < clock.requestUs) ||
      decide (localReceiveUs > maxLocalUs) || decide (hostReceiveNs ≤ 0) ||
      decide (hostSendNs < hostReceiveNs) || decide (hostSendNs > maxRosNs)) = false ↔
    echoedUs.toInt = clock.requestUs.toNat ∧ clock.requestUs.toNat ≤ localReceiveUs.toNat ∧
      localReceiveUs.toNat ≤ 9223372036854775 ∧ 0 < hostReceiveNs.toInt ∧
      hostReceiveNs.toInt ≤ hostSendNs.toInt ∧ hostSendNs.toInt ≤ 2147483647999999999 := by
  have hval := toNat_toUInt64_of_nonneg hecho
  have heq : echoedUs.toUInt64 = clock.requestUs ↔ echoedUs.toInt = clock.requestUs.toNat := by
    rw [← UInt64.toNat_inj]
    omega
  simp only [Bool.or_eq_false_iff, bne_eq_false_iff_eq, decide_eq_false_iff_not, heq,
    Int64.lt_iff_toInt_lt, Int64.le_iff_toInt_le, UInt64.lt_iff_toNat_lt, gt_iff_lt,
    Int64.toInt_zero, toInt_maxRosNs, toNat_maxLocalUs, not_lt, not_le, and_assoc]

theorem answers_iff :
    Answers clock echoedUs hostReceiveNs hostSendNs localReceiveUs ↔
    (!clock.pending || decide (echoedUs < 0)) = false ∧
    (echoedUs.toUInt64 != clock.requestUs || decide (localReceiveUs < clock.requestUs) ||
      decide (localReceiveUs > maxLocalUs) || decide (hostReceiveNs ≤ 0) ||
      decide (hostSendNs < hostReceiveNs) || decide (hostSendNs > maxRosNs)) = false := by
  constructor
  · intro h
    have hecho : 0 ≤ echoedUs.toInt := by
      rw [h.echoed]
      omega
    exact ⟨acceptGuard_iff.mpr ⟨h.pending, hecho⟩, (acceptGuard_iff' hecho).mpr
      ⟨h.echoed, h.ordered, h.inRange, h.received, h.sent, h.sentInRange⟩⟩
  · rintro ⟨hguard, hguard'⟩
    obtain ⟨hpending, hecho⟩ := acceptGuard_iff.mp hguard
    obtain ⟨hechoed, hordered, hrange, hreceived, hsent, hmax⟩ :=
      (acceptGuard_iff' hecho).mp hguard'
    exact ⟨hpending, hechoed, hordered, hrange, hreceived, hsent, hmax⟩

/-- The first two guards of `time_sync_accept` drop what does not answer the request. -/
theorem timeSyncAccept_of_not_answers (hA : A.Sound)
    (h : ¬ Answers clock echoedUs hostReceiveNs hostSendNs localReceiveUs) :
    timeSyncAccept A clock echoedUs hostReceiveNs hostSendNs localReceiveUs =
      pure (clock, false) := by
  unfold timeSyncAccept
  by_cases hguard : (!clock.pending || decide (echoedUs < 0)) = true
  · rw [if_pos hguard]
  · rw [Bool.not_eq_true] at hguard
    rw [answers_iff, not_and, Bool.not_eq_false] at h
    rw [if_neg (by simp [hguard]), hA.unsigned (acceptGuard_iff.mp hguard).2, pure_bind,
      if_pos (h hguard)]

/-- The rest of `time_sync_accept`: past the guards the operations are exact, and the
decisions are those on integers. -/
theorem timeSyncAccept_of_answers (hA : A.Sound)
    (h : Answers clock echoedUs hostReceiveNs hostSendNs localReceiveUs) :
    (Accepts clock echoedUs hostReceiveNs hostSendNs localReceiveUs →
      timeSyncAccept A clock echoedUs hostReceiveNs hostSendNs localReceiveUs =
        pure (acceptedClock clock hostReceiveNs hostSendNs localReceiveUs, true)) ∧
    (¬ Accepts clock echoedUs hostReceiveNs hostSendNs localReceiveUs →
      timeSyncAccept A clock echoedUs hostReceiveNs hostSendNs localReceiveUs =
        pure (clock, false)) := by
  obtain ⟨hguard, hguard'⟩ := answers_iff.mp h
  have hecho := (acceptGuard_iff.mp hguard).2
  obtain ⟨hpending, hechoed, hordered, hrange, hreceived, hsent, hmax⟩ := h
  -- the elapsed and the processing time
  have hle : clock.requestUs ≤ localReceiveUs := UInt64.le_iff_toNat_le.mpr hordered
  have helapsedUs := toNat_sub_of_le hle
  have helapsedRange : (localReceiveUs - clock.requestUs).toNat ≤ 9223372036854775 := by omega
  have helapsed := toNat_mul_thousand helapsedRange
  have hsubS : (hostSendNs - hostReceiveNs).toInt = hostSendNs.toInt - hostReceiveNs.toInt :=
    toInt_sub_of_bounds (by omega) (by omega)
  have hprocessing : ((hostSendNs - hostReceiveNs).toUInt64.toNat : ℤ) =
      hostSendNs.toInt - hostReceiveNs.toInt := by
    rw [toNat_toUInt64_of_nonneg (by omega), hsubS]
  unfold timeSyncAccept
  rw [if_neg (by simp [hguard]), hA.unsigned hecho, pure_bind, if_neg (by simp [hguard']),
    hA.sub hle, pure_bind, sound_mul_thousand hA helapsedRange, pure_bind,
    hA.subS (by omega) (by omega), pure_bind, hA.unsigned (by omega), pure_bind]
  generalize helapsed_def : (localReceiveUs - clock.requestUs) * 1000 = elapsedNs at helapsed ⊢
  generalize (hostSendNs - hostReceiveNs).toUInt64 = processingNs at hprocessing ⊢
  have hnetwork : networkNs clock hostReceiveNs hostSendNs localReceiveUs =
      (elapsedNs.toNat : ℤ) - processingNs.toNat := by
    rw [networkNs, helapsed, hprocessing]
    omega
  by_cases hprompt : clock.maxRttNs < elapsedNs ∨ elapsedNs < processingNs
  · -- delayed, or a longer processing time than the board measured
    rw [if_pos (by simpa using hprompt)]
    rw [UInt64.lt_iff_toNat_lt, UInt64.lt_iff_toNat_lt] at hprompt
    refine ⟨fun hacc => absurd hprompt ?_, fun _ => rfl⟩
    have hle_rtt := hacc.prompt
    have hle_elapsed := hacc.processed
    omega
  rw [if_neg (by simpa using hprompt)]
  rw [not_or, UInt64.not_lt, UInt64.not_lt] at hprompt
  obtain ⟨hrtt, hprocessed⟩ := hprompt
  -- half of the network time, and the room for it
  have hsub := toNat_sub_of_le hprocessed
  have hdiv : ((elapsedNs - processingNs) / 2).toNat = (elapsedNs - processingNs).toNat / 2 :=
    UInt64.toNat_div _ _
  have hhalf : ((elapsedNs - processingNs) / 2).toNat < 2 ^ 63 := by
    have hlt := (elapsedNs - processingNs).toNat_lt
    omega
  have hhalf' : ((elapsedNs - processingNs) / 2).toInt64.toInt =
      networkNs clock hostReceiveNs hostSendNs localReceiveUs / 2 := by
    rw [toInt_toInt64_of_lt hhalf, hnetwork]
    omega
  rw [hA.sub hprocessed, pure_bind, hA.signed hhalf, pure_bind]
  generalize ((elapsedNs - processingNs) / 2).toInt64 = halfNetworkNs at hhalf' ⊢
  have hhalf_range : 0 ≤ halfNetworkNs.toInt ∧ halfNetworkNs.toInt < 2 ^ 63 - 1000 := by
    rw [UInt64.le_iff_toNat_le] at hprocessed
    omega
  have hmaxNs := toInt_maxRosNs
  generalize maxRosNs = maxNs at hmaxNs ⊢
  have hroom_low : -2 ^ 63 ≤ maxNs.toInt - halfNetworkNs.toInt := by omega
  have hroom_high : maxNs.toInt - halfNetworkNs.toInt < 2 ^ 63 := by omega
  have hroom := toInt_sub_of_bounds hroom_low hroom_high
  rw [hA.subS hroom_low hroom_high, pure_bind]
  by_cases hfull : hostSendNs > maxNs - halfNetworkNs
  · rw [if_pos hfull]
    rw [gt_iff_lt, Int64.lt_iff_toInt_lt, hroom] at hfull
    refine ⟨fun hacc => absurd hacc.room ?_, fun _ => rfl⟩
    omega
  rw [if_neg hfull]
  rw [gt_iff_lt, Int64.lt_iff_toInt_lt, hroom] at hfull
  -- the estimate
  have hnow : (hostSendNs + halfNetworkNs).toInt = hostSendNs.toInt + halfNetworkNs.toInt :=
    toInt_add_of_bounds (by omega) (by omega)
  have hlocal := toNat_mul_thousand hrange
  have hlocal' : (localReceiveUs * 1000).toInt64.toInt = localReceiveUs.toNat * 1000 := by
    rw [toInt_toInt64_of_lt (by omega), hlocal]
    push_cast
    rfl
  have hoffset : (hostSendNs + halfNetworkNs - (localReceiveUs * 1000).toInt64).toInt =
      estimatedOffset clock hostReceiveNs hostSendNs localReceiveUs := by
    rw [toInt_sub_of_bounds (by omega) (by omega), hnow, hlocal', hhalf', estimatedOffset]
  rw [hA.addS (by omega) (by omega), pure_bind, sound_mul_thousand hA hrange, pure_bind,
    hA.signed (by omega), pure_bind, hA.subS (by omega) (by omega), pure_bind]
  have haccepts : Accepts clock echoedUs hostReceiveNs hostSendNs localReceiveUs :=
    { pending := hpending
      echoed := hechoed
      ordered := hordered
      inRange := hrange
      received := hreceived
      sent := hsent
      sentInRange := hmax
      prompt := by rw [UInt64.le_iff_toNat_le] at hrtt; omega
      processed := by omega
      room := by omega }
  refine ⟨fun _ => ?_, fun hnot => absurd haccepts hnot⟩
  have hsame : hostSendNs + halfNetworkNs - (localReceiveUs * 1000).toInt64 =
      .ofInt (estimatedOffset clock hostReceiveNs hostSendNs localReceiveUs) := by
    rw [← hoffset, Int64.ofInt_toInt]
  rw [acceptedClock, hsame]

/-- **An exchange is accepted exactly when its stamps meet `Accepts`**, and a rejected one
changes nothing. -/
theorem timeSyncAccept_eq (hA : A.Sound) (clock : TimeSync)
    (echoedUs hostReceiveNs hostSendNs : Int64) (localReceiveUs : UInt64) :
    (Accepts clock echoedUs hostReceiveNs hostSendNs localReceiveUs →
      timeSyncAccept A clock echoedUs hostReceiveNs hostSendNs localReceiveUs =
        pure (acceptedClock clock hostReceiveNs hostSendNs localReceiveUs, true)) ∧
    (¬ Accepts clock echoedUs hostReceiveNs hostSendNs localReceiveUs →
      timeSyncAccept A clock echoedUs hostReceiveNs hostSendNs localReceiveUs =
        pure (clock, false)) := by
  by_cases h : Answers clock echoedUs hostReceiveNs hostSendNs localReceiveUs
  · exact timeSyncAccept_of_answers hA h
  · constructor
    · intro hacc
      exact absurd hacc.toAnswers h
    · intro _
      exact timeSyncAccept_of_not_answers hA h

/-! ### The offset -/

/-- The bounds every accepted exchange gives the offset. -/
def OffsetBounded (clock : TimeSync) : Prop :=
  -9223372036854775000 ≤ clock.offsetNs.toInt ∧ clock.offsetNs.toInt ≤ 2147483647999999999

omit [Monad m] [LawfulMonad m] in
theorem Accepts.estimate_bounds
    (h : Accepts clock echoedUs hostReceiveNs hostSendNs localReceiveUs) :
    -9223372036854775000 ≤ estimatedOffset clock hostReceiveNs hostSendNs localReceiveUs ∧
      estimatedOffset clock hostReceiveNs hostSendNs localReceiveUs ≤ 2147483647999999999 := by
  have hreceived := h.received
  have hsent := h.sent
  have hrange := h.inRange
  have hprocessed := h.processed
  have hroom := h.room
  rw [estimatedOffset]
  omega

/-- The estimate is stored as it is. -/
theorem Accepts.toInt_offset
    (h : Accepts clock echoedUs hostReceiveNs hostSendNs localReceiveUs) :
    (acceptedClock clock hostReceiveNs hostSendNs localReceiveUs).offsetNs.toInt =
      estimatedOffset clock hostReceiveNs hostSendNs localReceiveUs := by
  obtain ⟨hlow, hhigh⟩ := h.estimate_bounds
  exact Int64.toInt_ofInt_of_le (by omega) (by omega)

/-- The time is available at `localUs`, with the sum of the local time and the offset in
range. -/
structure TimeAvailable (clock : TimeSync) (localUs : UInt64) : Prop where
  synced : clock.synced = true
  after : clock.lastSyncUs.toNat ≤ localUs.toNat
  fresh : localUs.toNat < clock.lastSyncUs.toNat + clock.timeoutUs.toNat
  inRange : localUs.toNat ≤ 9223372036854775
  nonneg : 0 ≤ localUs.toNat * 1000 + clock.offsetNs.toInt
  room : localUs.toNat * 1000 + clock.offsetNs.toInt ≤ 2147483647999999999

/-- The local time and the offset, added. -/
def estimatedTime (clock : TimeSync) (localUs : UInt64) : Int64 :=
  .ofInt (localUs.toNat * 1000 + clock.offsetNs.toInt)

omit [Monad m] [LawfulMonad m] in
theorem TimeAvailable.toInt_estimate {localUs : UInt64} (h : TimeAvailable clock localUs) :
    (estimatedTime clock localUs).toInt = localUs.toNat * 1000 + clock.offsetNs.toInt := by
  have hnonneg := h.nonneg
  have hroom := h.room
  exact Int64.toInt_ofInt_of_le (by omega) (by omega)

/-- The end of `time_sync_time`, on a sum that does not overflow. -/
theorem timeSyncTime_estimate (hA : A.Sound) {localNs offsetNs : Int64}
    (hlow : -2 ^ 63 ≤ localNs.toInt + offsetNs.toInt)
    (hhigh : localNs.toInt + offsetNs.toInt < 2 ^ 63) :
    (do
      let estimate ← A.addS localNs offsetNs
      if estimate < 0 || estimate > maxRosNs then
        return none
      return some estimate) =
    (pure (if 0 ≤ localNs.toInt + offsetNs.toInt ∧
        localNs.toInt + offsetNs.toInt ≤ 2147483647999999999 then
      some (.ofInt (localNs.toInt + offsetNs.toInt)) else none) : m (Option Int64)) := by
  have hsum := toInt_add_of_bounds hlow hhigh
  have hmaxNs := toInt_maxRosNs
  rw [hA.addS hlow hhigh, pure_bind, ← hsum, Int64.ofInt_toInt]
  generalize localNs + offsetNs = estimate
  generalize maxRosNs = maxNs at hmaxNs ⊢
  by_cases hout : estimate < 0 ∨ maxNs < estimate
  · rw [if_pos (by simpa using hout), if_neg]
    rw [Int64.lt_iff_toInt_lt, Int64.lt_iff_toInt_lt, Int64.toInt_zero] at hout
    omega
  · rw [if_neg (by simpa using hout), if_pos]
    rw [Int64.lt_iff_toInt_lt, Int64.lt_iff_toInt_lt, Int64.toInt_zero] at hout
    omega

/-- **The time is `local + offset`** where it is available, and none is given elsewhere. -/
theorem timeSyncTime_eq (hA : A.Sound) (hclock : OffsetBounded clock) (localUs : UInt64) :
    (TimeAvailable clock localUs →
      timeSyncTime A clock localUs = pure (some (estimatedTime clock localUs))) ∧
    (¬ TimeAvailable clock localUs → timeSyncTime A clock localUs = pure none) := by
  obtain ⟨hoffset_low, hoffset_high⟩ := hclock
  unfold timeSyncTime
  by_cases hunsynced : clock.synced = false ∨ localUs < clock.lastSyncUs
  · rw [if_pos (by simpa using hunsynced)]
    rw [UInt64.lt_iff_toNat_lt] at hunsynced
    refine ⟨fun h => absurd hunsynced ?_, fun _ => rfl⟩
    rintro (hsynced | hbefore)
    · simp [h.synced] at hsynced
    · have hafter := h.after
      omega
  rw [if_neg (by simpa using hunsynced)]
  rw [not_or, Bool.not_eq_false, UInt64.not_lt] at hunsynced
  obtain ⟨hsynced, hafter⟩ := hunsynced
  rw [hA.sub hafter, pure_bind]
  by_cases hexpired : clock.timeoutUs ≤ localUs - clock.lastSyncUs ∨ maxLocalUs < localUs
  · rw [if_pos (by simpa using hexpired)]
    rw [Clock.le_sub_iff hafter, UInt64.lt_iff_toNat_lt, toNat_maxLocalUs] at hexpired
    refine ⟨fun h => absurd hexpired ?_, fun _ => rfl⟩
    have hfresh := h.fresh
    have hrange := h.inRange
    omega
  rw [if_neg (by simpa using hexpired)]
  rw [not_or, UInt64.not_le, UInt64.not_lt, Clock.sub_lt_iff hafter, UInt64.le_iff_toNat_le,
    toNat_maxLocalUs] at hexpired
  obtain ⟨hfresh, hrange⟩ := hexpired
  have hlocal := toNat_mul_thousand hrange
  have hfits : (localUs * 1000).toNat < 2 ^ 63 := by omega
  have hlocalNs : (localUs * 1000).toInt64.toInt = localUs.toNat * 1000 := by
    rw [toInt_toInt64_of_lt hfits, hlocal, Nat.cast_mul, Nat.cast_ofNat]
  rw [sound_mul_thousand hA hrange, pure_bind, hA.signed hfits, pure_bind]
  generalize (localUs * 1000).toInt64 = localNs at hlocalNs ⊢
  have htimed : TimeAvailable clock localUs ↔ 0 ≤ localNs.toInt + clock.offsetNs.toInt ∧
      localNs.toInt + clock.offsetNs.toInt ≤ 2147483647999999999 := by
    rw [hlocalNs]
    constructor
    · intro h
      exact ⟨h.nonneg, h.room⟩
    · rintro ⟨hnonneg, hroom⟩
      exact ⟨hsynced, UInt64.le_iff_toNat_le.mp hafter, hfresh, hrange, hnonneg, hroom⟩
  rw [htimed, estimatedTime, ← hlocalNs]
  dsimp only
  by_cases hpos : clock.offsetNs > 0
  · -- the code's own overflow guard
    have hmax := toInt_int64Max
    generalize int64Max = maxNs at hmax ⊢
    have hposInt : 0 < clock.offsetNs.toInt := by
      rw [gt_iff_lt, Int64.lt_iff_toInt_lt, Int64.toInt_zero] at hpos
      exact hpos
    have hlow : -2 ^ 63 ≤ maxNs.toInt - clock.offsetNs.toInt := by omega
    have hhigh : maxNs.toInt - clock.offsetNs.toInt < 2 ^ 63 := by omega
    have hroom := toInt_sub_of_bounds hlow hhigh
    rw [if_pos hpos, hA.subS hlow hhigh, pure_bind]
    by_cases hover : localNs > maxNs - clock.offsetNs
    · rw [if_pos hover]
      rw [gt_iff_lt, Int64.lt_iff_toInt_lt, hroom] at hover
      exact ⟨fun h => by omega, fun _ => rfl⟩
    · rw [if_neg hover]
      rw [gt_iff_lt, Int64.lt_iff_toInt_lt, hroom] at hover
      rw [timeSyncTime_estimate hA (by omega) (by omega)]
      exact ⟨fun h => by rw [if_pos h], fun h => by rw [if_neg h]⟩
  · -- an offset below zero cannot overflow: the bound on it leaves room
    have hnonpos : clock.offsetNs.toInt ≤ 0 := by
      rw [gt_iff_lt, Int64.lt_iff_toInt_lt, Int64.toInt_zero] at hpos
      omega
    rw [if_neg hpos, timeSyncTime_estimate hA (by omega) (by omega)]
    exact ⟨fun h => by rw [if_pos h], fun h => by rw [if_neg h]⟩

/-- `stamp` is the time `ns`, split into whole seconds and the rest. -/
structure RosTime.Represents (stamp : RosTime) (ns : ℤ) : Prop where
  sec : stamp.sec.toInt = ns / 1000000000
  nanosec : stamp.nanosec.toNat = ns % 1000000000
  value : stamp.sec.toInt * 1000000000 + stamp.nanosec.toNat = ns
  proper : stamp.nanosec.toNat < 1000000000

/-- The stamp the code builds from a time. -/
def stampOf (ns : Int64) : RosTime :=
  { sec := (ns / 1000000000).toInt32, nanosec := (ns % 1000000000).toUInt64.toUInt32 }

/-- A time in the ROS range is stamped exactly. -/
theorem stampAt_some (hA : A.Sound) {localUs : UInt64} {ns : Int64}
    (htime : timeSyncTime A clock localUs = pure (some ns)) (hnonneg : 0 ≤ ns.toInt)
    (hmax : ns.toInt ≤ 2147483647999999999) :
    stampAt A clock localUs = pure (some (stampOf ns)) ∧ (stampOf ns).Represents ns.toInt := by
  have hbillion : (1000000000 : Int64).toInt = 1000000000 := rfl
  have hsec : (ns / 1000000000).toInt = ns.toInt / 1000000000 := by
    rw [Int64.toInt_div, hbillion, Int.tdiv_eq_ediv_of_nonneg hnonneg]
    exact Int.bmod_eq_of_le (by omega) (by omega)
  have hrest : (ns % 1000000000).toInt = ns.toInt % 1000000000 := by
    rw [Int64.toInt_mod, hbillion, Int.tmod_eq_emod_of_nonneg hnonneg]
  have hsec32 : (stampOf ns).sec.toInt = ns.toInt / 1000000000 := by
    rw [stampOf, toInt_toInt32_of_bounds (by omega) (by omega), hsec]
  have hrest32 : ((stampOf ns).nanosec.toNat : ℤ) = ns.toInt % 1000000000 := by
    rw [stampOf, toNat_toUInt32_of_bounds (by omega) (by omega), hrest]
  constructor
  · rw [stampAt, htime, pure_bind]
    show (do
      let sec ← A.signed32 (ns / 1000000000)
      let nanosec ← A.unsigned32 (ns % 1000000000)
      return some (⟨sec, nanosec⟩ : RosTime)) = _
    rw [hA.signed32 (by omega) (by omega), pure_bind, hA.unsigned32 (by omega) (by omega),
      pure_bind]
    rfl
  · exact ⟨hsec32, hrest32, by omega, by omega⟩

theorem stampAt_none {localUs : UInt64} (htime : timeSyncTime A clock localUs = pure none) :
    stampAt A clock localUs = pure none := by
  rw [stampAt, htime, pure_bind]

/-! ### Runs -/

/-- The calls that change the clock, with any arguments. -/
inductive TimeSyncEvent
  | start (localUs : UInt64)
  | accept (echoedUs hostReceiveNs hostSendNs : Int64) (localReceiveUs : UInt64)

section Runs

variable (A)

def timeSyncStep (clock : TimeSync) : TimeSyncEvent → m TimeSync
  | .start localUs => pure (timeSyncStart clock localUs)
  | .accept echoedUs hostReceiveNs hostSendNs localReceiveUs => do
    let (clock, _) ← timeSyncAccept A clock echoedUs hostReceiveNs hostSendNs localReceiveUs
    return clock

/-- `time_sync_init` and then the calls, in order. -/
def timeSyncRun (maxRttUs : UInt32) (timeoutUs : UInt64) (es : List TimeSyncEvent) :
    m TimeSync := do
  let clock ← timeSyncInit A maxRttUs timeoutUs
  es.foldlM (timeSyncStep A) clock

end Runs

/-- The clock `time_sync_init` leaves. -/
def initialClock (maxRttUs : UInt32) (timeoutUs : UInt64) : TimeSync :=
  { requestUs := 0, lastSyncUs := 0, maxRttNs := maxRttUs.toUInt64 * 1000, timeoutUs
    offsetNs := 0, pending := false, synced := false }

theorem timeSyncInit_eq (hA : A.Sound) (maxRttUs : UInt32) (timeoutUs : UInt64) :
    timeSyncInit A maxRttUs timeoutUs = pure (initialClock maxRttUs timeoutUs) := by
  have hlt := maxRttUs.toNat_lt
  rw [timeSyncInit, sound_mul_thousand hA (by rw [UInt32.toNat_toUInt64]; omega), pure_bind]
  rfl

/-- Each step keeps the offset in its bounds, and is the same in every sound arithmetic. -/
theorem timeSyncStep_bounded (clock : TimeSync) (hclock : OffsetBounded clock)
    (e : TimeSyncEvent) : ∃ next : TimeSync, OffsetBounded next ∧
      ∀ {m : Type → Type} [Monad m] [LawfulMonad m] (A : Arith64 m), A.Sound →
        timeSyncStep A clock e = pure next := by
  cases e with
  | start localUs => exact ⟨timeSyncStart clock localUs, hclock, fun A _ => rfl⟩
  | accept echoedUs hostReceiveNs hostSendNs localReceiveUs =>
    by_cases h : Accepts clock echoedUs hostReceiveNs hostSendNs localReceiveUs
    · refine ⟨acceptedClock clock hostReceiveNs hostSendNs localReceiveUs, ?_, ?_⟩
      · rw [OffsetBounded, h.toInt_offset]
        exact h.estimate_bounds
      · intro m _ _ A hA
        rw [timeSyncStep, (timeSyncAccept_eq hA ..).1 h, pure_bind]
    · refine ⟨clock, hclock, ?_⟩
      intro m _ _ A hA
      rw [timeSyncStep, (timeSyncAccept_eq hA ..).2 h, pure_bind]

/-- So does a run, from any clock within the bounds. -/
theorem timeSyncSteps_bounded (es : List TimeSyncEvent) (clock : TimeSync)
    (hclock : OffsetBounded clock) : ∃ final : TimeSync, OffsetBounded final ∧
      ∀ {m : Type → Type} [Monad m] [LawfulMonad m] (A : Arith64 m), A.Sound →
        es.foldlM (timeSyncStep A) clock = pure final := by
  induction es generalizing clock with
  | nil => exact ⟨clock, hclock, fun A _ => rfl⟩
  | cons e es ih =>
    obtain ⟨next, hnext, hstep⟩ := timeSyncStep_bounded clock hclock e
    obtain ⟨final, hfinal, hrun⟩ := ih next hnext
    refine ⟨final, hfinal, ?_⟩
    intro m _ _ A hA
    rw [List.foldlM_cons, hstep A hA, pure_bind, hrun A hA]

theorem timeSyncRun_bounded (maxRttUs : UInt32) (timeoutUs : UInt64) (es : List TimeSyncEvent) :
    ∃ final : TimeSync, OffsetBounded final ∧
      ∀ {m : Type → Type} [Monad m] [LawfulMonad m] (A : Arith64 m), A.Sound →
        timeSyncRun A maxRttUs timeoutUs es = pure final := by
  have hinit : OffsetBounded (initialClock maxRttUs timeoutUs) := by
    constructor <;> simp [initialClock]
  obtain ⟨final, hfinal, hrun⟩ := timeSyncSteps_bounded es _ hinit
  refine ⟨final, hfinal, ?_⟩
  intro m _ _ A hA
  rw [timeSyncRun, timeSyncInit_eq hA, pure_bind, hrun A hA]

/-- Every further call on the clock stays in its ranges: the checked version returns what the
code returns, a rejected exchange changes nothing, and a time is stamped exactly. -/
structure ExactCalls (clock : TimeSync) : Prop where
  accept (echoedUs hostReceiveNs hostSendNs : Int64) (localReceiveUs : UInt64) :
    timeSyncAccept checked clock echoedUs hostReceiveNs hostSendNs localReceiveUs =
      some (timeSyncAccept wrapping clock echoedUs hostReceiveNs hostSendNs localReceiveUs).run
  rejected (echoedUs hostReceiveNs hostSendNs : Int64) (localReceiveUs : UInt64) :
    (timeSyncAccept wrapping clock echoedUs hostReceiveNs hostSendNs localReceiveUs).run.2 =
      false →
    (timeSyncAccept wrapping clock echoedUs hostReceiveNs hostSendNs localReceiveUs).run.1 = clock
  time (localUs : UInt64) :
    timeSyncTime checked clock localUs = some (timeSyncTime wrapping clock localUs).run
  stamp (localUs : UInt64) :
    stampAt checked clock localUs = some (stampAt wrapping clock localUs).run
  range (localUs : UInt64) (ns : Int64) : (timeSyncTime wrapping clock localUs).run = some ns →
    0 ≤ ns.toInt ∧ ns.toInt ≤ 2147483647999999999 ∧
      ∃ stamp : RosTime, (stampAt wrapping clock localUs).run = some stamp ∧
        stamp.Represents ns.toInt

/-- One result of an exchange, in every sound arithmetic. -/
theorem timeSyncAccept_pure (clock : TimeSync) (echoedUs hostReceiveNs hostSendNs : Int64)
    (localReceiveUs : UInt64) : ∃ out : TimeSync × Bool, (out.2 = false → out.1 = clock) ∧
      ∀ {m : Type → Type} [Monad m] [LawfulMonad m] (A : Arith64 m), A.Sound →
        timeSyncAccept A clock echoedUs hostReceiveNs hostSendNs localReceiveUs = pure out := by
  by_cases h : Accepts clock echoedUs hostReceiveNs hostSendNs localReceiveUs
  · refine ⟨(acceptedClock clock hostReceiveNs hostSendNs localReceiveUs, true), by simp, ?_⟩
    intro m _ _ A hA
    exact (timeSyncAccept_eq hA ..).1 h
  · refine ⟨(clock, false), fun _ => rfl, ?_⟩
    intro m _ _ A hA
    exact (timeSyncAccept_eq hA ..).2 h

/-- One time and one stamp of it. -/
theorem stampAt_pure {clock : TimeSync} (hclock : OffsetBounded clock) (localUs : UInt64) :
    ∃ (time : Option Int64) (stamp : Option RosTime),
      (∀ ns : Int64, time = some ns → 0 ≤ ns.toInt ∧ ns.toInt ≤ 2147483647999999999 ∧
        ∃ value : RosTime, stamp = some value ∧ value.Represents ns.toInt) ∧
      ∀ {m : Type → Type} [Monad m] [LawfulMonad m] (A : Arith64 m), A.Sound →
        timeSyncTime A clock localUs = pure time ∧ stampAt A clock localUs = pure stamp := by
  by_cases h : TimeAvailable clock localUs
  · have hnonneg := h.nonneg
    have hroom := h.room
    rw [← h.toInt_estimate] at hnonneg hroom
    refine ⟨some (estimatedTime clock localUs), some (stampOf (estimatedTime clock localUs)),
      ?_, ?_⟩
    · intro ns hns
      rw [← Option.some.inj hns]
      have hstamp := (stampAt_some wrapping_sound ((timeSyncTime_eq wrapping_sound hclock
        localUs).1 h) hnonneg hroom).2
      exact ⟨hnonneg, hroom, _, rfl, hstamp⟩
    · intro m _ _ A hA
      have htime := (timeSyncTime_eq hA hclock localUs).1 h
      exact ⟨htime, (stampAt_some hA htime hnonneg hroom).1⟩
  · refine ⟨none, none, by simp, ?_⟩
    intro m _ _ A hA
    have htime := (timeSyncTime_eq hA hclock localUs).2 h
    exact ⟨htime, stampAt_none htime⟩

theorem exactCalls_of_bounded {clock : TimeSync} (hclock : OffsetBounded clock) :
    ExactCalls clock := by
  refine ⟨?_, ?_, ?_, ?_, ?_⟩
  · intro e r s l
    obtain ⟨out, -, hout⟩ := timeSyncAccept_pure clock e r s l
    rw [hout checked checked_sound, hout wrapping wrapping_sound]
    rfl
  · intro e r s l hfalse
    obtain ⟨out, hsame, hout⟩ := timeSyncAccept_pure clock e r s l
    rw [hout wrapping wrapping_sound] at hfalse ⊢
    exact hsame hfalse
  · intro t
    obtain ⟨time, stamp, -, hout⟩ := stampAt_pure hclock t
    rw [(hout checked checked_sound).1, (hout wrapping wrapping_sound).1]
    rfl
  · intro t
    obtain ⟨time, stamp, -, hout⟩ := stampAt_pure hclock t
    rw [(hout checked checked_sound).2, (hout wrapping wrapping_sound).2]
    rfl
  · intro t ns hns
    obtain ⟨time, stamp, hrange, hout⟩ := stampAt_pure hclock t
    rw [(hout wrapping wrapping_sound).1] at hns
    rw [(hout wrapping wrapping_sound).2]
    exact hrange ns hns

/-- **No operation of a run is inexact, and none of any call after it.**  The run with checked
arithmetic returns the clock the code reaches, whatever the calls were given. -/
theorem time_sync_arithmetic (maxRttUs : UInt32) (timeoutUs : UInt64) (es : List TimeSyncEvent) :
    timeSyncRun checked maxRttUs timeoutUs es =
      some (timeSyncRun wrapping maxRttUs timeoutUs es).run ∧
    ExactCalls (timeSyncRun wrapping maxRttUs timeoutUs es).run := by
  obtain ⟨final, hfinal, hrun⟩ := timeSyncRun_bounded maxRttUs timeoutUs es
  rw [hrun checked checked_sound, hrun wrapping wrapping_sound]
  exact ⟨rfl, exactCalls_of_bounded hfinal⟩
