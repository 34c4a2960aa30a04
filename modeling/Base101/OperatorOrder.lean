/-
The order of operator messages.

The server compares a message's number with the last one of the client that owns the
controls, and starts afresh when another client arms.

* `taken` — the messages that pass this check;
* `Owned` — the owner is the client of the last message taken, and its number is the one
  remembered;
* `numbers_grow_iff` — in a run each client's numbers grow, and an old message changes
  nothing, exactly if every client that takes the controls over goes on with its own
  numbers;
* `number_repeated` — a delayed copy of an `arm` arms the controls again.
-/
import Base101.SerialPresence

namespace SerialLink

open Double

section Order

variable {F : Type} [Double F] {s : Server F} {now : F}

/-! ### Messages that are taken -/

/-- The client and the number of a message that gets past the check of its number. -/
def taken (s : Server F) : Event F → Option (String × ℤ)
  | .operator now action m =>
    match checkMessage action m with
    | .error _ => none
    | .ok (client, seq) =>
      match (accept s now action client seq).2 with
      | .error _ => none
      | .ok _ => some (client, seq)
  | _ => none

/-- The server, and what it has taken, the latest first. -/
def orderMachine : Machine (Server F × List (String × ℤ)) (Event F) where
  step := fun (s, numbers) e => (step s e, (taken s e).toList ++ numbers)
  time := fun _ => none

/-- Each client's numbers grow. -/
def Growing (numbers : List (String × ℤ)) : Prop :=
  numbers.Pairwise fun later earlier => later.1 = earlier.1 → earlier.2 < later.2

instance (numbers : List (String × ℤ)) : Decidable (Growing numbers) :=
  inferInstanceAs (Decidable (List.Pairwise _ _))

/-- An `arm` takes the controls over: the server listens, nothing is armed, and the last
message taken was another client's. -/
structure TakesOver (state : Server F × List (String × ℤ)) (e : Event F) (m : String × ℤ) :
    Prop where
  arm : ∃ now message, e = .operator now .arm message ∧ checkMessage .arm message = .ok m
  saving : state.1.saving = false
  ready : state.1.ready = true
  armed : state.1.armed = false
  other : ∀ last ∈ state.2.head?, last.1 ≠ m.1

/-- A client that takes the controls over goes on with its own numbers. -/
def Continues (state : Server F × List (String × ℤ)) (e : Event F) : Prop :=
  ∀ m, TakesOver state e m → ∀ earlier ∈ state.2, m.1 = earlier.1 → earlier.2 < m.2

/-- A message numbered no higher than one that was taken before changes nothing. -/
def OldIgnored (state : Server F × List (String × ℤ)) (e : Event F) : Prop :=
  ∀ now action message, e = .operator now action message →
    ∀ m, checkMessage action message = .ok m →
      (∃ earlier ∈ state.2, m.1 = earlier.1 ∧ m.2 ≤ earlier.2) → step state.1 e = state.1

/-! ### One message -/

theorem checkMessage_nonneg {action : Action} {message : Message F} {m : String × ℤ}
    (h : checkMessage action message = .ok m) : 0 ≤ m.2 := by
  unfold checkMessage at h
  split at h
  · cases h
  · split at h
    · cases h
    · split at h
      · cases h
      · next seq _ =>
        by_cases hrange : seq < 0 ∨ 2147483647 < seq
        · rw [if_pos hrange] at h
          cases h
        · rw [if_neg hrange] at h
          have hm : m.2 = seq := by
            split at h
            · cases h
            · split at h
              · cases h
              · obtain rfl := Except.ok.inj h
                rfl
          omega

/-- Another client's message is noted only if it arms free controls, the owner's only if its
number is new. -/
def GetsPast (s : Server F) (action : Action) (client : String) (seq : ℤ) : Prop :=
  s.saving = false ∧ s.ready = true ∧
    if s.operatorClient = some client then s.operatorSequence < seq
    else action = .arm ∧ s.armed = false

omit [Double F] in
/-- A message is refused as it is, or noted with its client and number. -/
theorem accept_cases (s : Server F) (now : F) (action : Action) (client : String) {seq : ℤ}
    (hseq : 0 ≤ seq) :
    (∃ e, accept s now action client seq = (s, .error e)) ∧ ¬GetsPast s action client seq ∨
      accept s now action client seq = ({ s with
        operatorClient := some client, operatorSequence := seq, operatorSeen := now }, .ok ()) ∧
      GetsPast s action client seq := by
  rw [accept, GetsPast]
  dsimp only
  by_cases hsaving : s.saving = true
  · rw [if_pos hsaving]
    exact .inl ⟨⟨_, rfl⟩, by simp [hsaving]⟩
  by_cases hready : s.ready = true
  swap
  · rw [if_neg hsaving, if_pos (by simpa using hready)]
    exact .inl ⟨⟨_, rfl⟩, by simp [hready]⟩
  rw [if_neg hsaving, if_neg (by simp [hready])]
  by_cases hown : s.operatorClient = some client
  · rw [if_neg (fun h => h.1 hown), if_neg (not_not.mpr hown), if_pos hown]
    by_cases hstale : seq ≤ s.operatorSequence
    · rw [if_pos hstale]
      exact .inl ⟨⟨_, rfl⟩, fun h => absurd h.2.2 (not_lt.mpr hstale)⟩
    · rw [if_neg hstale, ← hown]
      exact .inr ⟨rfl, by simpa using hsaving, hready, not_le.mp hstale⟩
  · rw [if_neg hown]
    by_cases hfree : action = .arm ∧ s.armed = false
    · have hopen : ¬(s.operatorClient ≠ some client ∧ (action ≠ .arm ∨ s.armed = true)) := by
        simp [hfree]
      rw [if_neg hopen, if_pos hown, if_neg (show ¬seq ≤ -1 by omega)]
      exact .inr ⟨rfl, by simpa using hsaving, hready, hfree⟩
    · have hrefused : action ≠ .arm ∨ s.armed = true := by
        rcases not_and_or.mp hfree with harm | harmed
        · exact .inl harm
        · exact .inr (by simpa using harmed)
      rw [if_pos ⟨hown, hrefused⟩]
      exact .inl ⟨⟨_, rfl⟩, fun h => hfree h.2.2⟩

/-- The actions leave the owner and its last number alone. -/
theorem performAction_owner (s : Server F) (now : F) (action : Action) (client : String)
    (m : Message F) :
    (performAction s now action client m).1.operatorClient = s.operatorClient ∧
      (performAction s now action client m).1.operatorSequence = s.operatorSequence := by
  rw [performAction]
  split
  · exact ⟨rfl, rfl⟩
  split
  · have hkept := finishTrial_kept s "manual takeover" false now
    exact ⟨hkept.operatorClient, hkept.operatorSequence⟩
  have hacted := act_acted s now action m
  generalize act s now action m = out at hacted
  cases hacted with
  | refused => exact ⟨rfl, rfl⟩
  | manual armed intent intentUntil releasePending haction =>
    dsimp only
    split <;> exact ⟨rfl, rfl⟩
  | presence haction =>
    dsimp only
    split <;> exact ⟨rfl, rfl⟩
  | started haction hbegun hstart =>
    obtain ⟨T, -, -, -, rfl⟩ := startTrial_ok hstart
    dsimp only
    split <;> cases hbegun <;> exact ⟨rfl, rfl⟩

/-- A message is refused as it is, or taken. -/
theorem operator_taken (s : Server F) (now : F) (action : Action) (message : Message F) :
    (taken s (.operator now action message) = none ∧ (operator s now action message).1 = s) ∨
      ∃ client seq, checkMessage action message = .ok (client, seq) ∧
        GetsPast s action client seq ∧
        taken s (.operator now action message) = some (client, seq) ∧
        (operator s now action message).1.operatorClient = some client ∧
        (operator s now action message).1.operatorSequence = seq := by
  rw [taken, operator]
  rcases hcheck : checkMessage action message with error | ⟨client, seq⟩
  · exact .inl ⟨rfl, rfl⟩
  dsimp only
  rw [operatorLocked]
  rcases accept_cases s now action client (checkMessage_nonneg hcheck) with
    ⟨⟨error, haccept⟩, -⟩ | ⟨haccept, hpast⟩
  · rw [haccept]
    exact .inl ⟨rfl, rfl⟩
  · rw [haccept]
    obtain ⟨hclient, hseq⟩ := performAction_owner { s with
      operatorClient := some client, operatorSequence := seq, operatorSeen := now }
      now action client message
    exact .inr ⟨client, seq, rfl, hpast, rfl, hclient, hseq⟩

/-- What the step of a run does to the owner and to what has been taken. -/
theorem step_taken (s : Server F) (e : Event F) :
    (taken s e = none ∧ (step s e).operatorClient = s.operatorClient ∧
        (step s e).operatorSequence = s.operatorSequence ∧
        ∀ now action message, e = .operator now action message → step s e = s) ∨
      ∃ now action message client seq, e = .operator now action message ∧
        checkMessage action message = .ok (client, seq) ∧ GetsPast s action client seq ∧
        taken s e = some (client, seq) ∧ (step s e).operatorClient = some client ∧
        (step s e).operatorSequence = seq := by
  have hother (htaken : taken s e = none) (htended : Tended s (step s e))
      (hevent : ∀ now action message, e ≠ .operator now action message) :
      taken s e = none ∧ (step s e).operatorClient = s.operatorClient ∧
        (step s e).operatorSequence = s.operatorSequence ∧
        ∀ now action message, e = .operator now action message → step s e = s :=
    ⟨htaken, htended.operatorClient, htended.operatorSequence,
      fun now action message h => absurd h (hevent now action message)⟩
  have hsame : Tended s s := Tended.refl s
  cases e with
  | operator now action message =>
    rcases operator_taken s now action message with
      ⟨htaken, hsame⟩ | ⟨client, seq, hrest⟩
    · have hstep : step s (.operator now action message) = s := hsame
      rw [hstep]
      exact .inl ⟨htaken, rfl, rfl, fun _ _ _ _ => rfl⟩
    · exact .inr ⟨now, action, message, client, seq, rfl, hrest⟩
  | halt now calibrate =>
    refine .inl (hother rfl ?_ (by intro _ _ _ h; cases h))
    exact (Tended.of_kept (cancelOperator_kept s now)).trans
      (Tended.of_eq rfl rfl rfl id rfl rfl rfl rfl)
  | parameters line full =>
    refine .inl (hother rfl ?_ (by intro _ _ _ h; cases h))
    rw [step]
    split
    · exact hsame
    · split <;> exact Tended.of_eq rfl rfl rfl id rfl rfl rfl rfl
  | request now handler =>
    refine .inl (hother rfl ?_ (by intro _ _ _ h; cases h))
    rw [step, queueRequest]
    split
    · exact hsame
    · dsimp only
      split <;> exact Tended.of_eq rfl rfl rfl id rfl rfl rfl rfl
  | saveBegin now =>
    refine .inl (hother rfl ?_ (by intro _ _ _ h; cases h))
    rw [step, beginSave]
    split
    · exact hsame
    · split <;> exact Tended.of_eq rfl rfl rfl id rfl rfl rfl rfl
  | saveEnd =>
    refine .inl (hother rfl ?_ (by intro _ _ _ h; cases h))
    exact Tended.of_eq rfl rfl rfl id rfl rfl rfl rfl
  | close =>
    refine .inl (hother rfl ?_ (by intro _ _ _ h; cases h))
    exact Tended.of_eq rfl rfl rfl id rfl rfl rfl rfl
  | thread now input =>
    refine .inl (hother rfl ?_ (by intro _ _ _ h; cases h))
    exact threadStep_tended s now input

/-! ### Runs -/

/-- The owner is the client of the last message taken, whose number is the one remembered. -/
structure Owned (state : Server F × List (String × ℤ)) : Prop where
  client : state.1.operatorClient = state.2.head?.map Prod.fst
  number : ∀ last ∈ state.2.head?, last.2 = state.1.operatorSequence

theorem Owned.step {state : Server F × List (String × ℤ)} (h : Owned state) (e : Event F) :
    Owned (orderMachine.step state e) := by
  obtain ⟨s, numbers⟩ := state
  show Owned (SerialLink.step s e, (taken s e).toList ++ numbers)
  rcases step_taken s e with
    ⟨htaken, hclient, hseq, -⟩ | ⟨now, action, message, client, seq, -, -, -, htaken, hclient, hseq⟩
  · rw [htaken]
    refine ⟨hclient.trans h.client, ?_⟩
    intro last hlast
    exact (h.number last hlast).trans hseq.symm
  · rw [htaken]
    refine ⟨hclient, ?_⟩
    intro last hlast
    obtain rfl := Option.some.inj hlast
    exact hseq.symm

/-- A takeover is taken. -/
theorem TakesOver.taken {state : Server F × List (String × ℤ)} (hstate : Owned state) {e : Event F}
    {m : String × ℤ} (h : TakesOver state e m) : taken state.1 e = some m := by
  obtain ⟨client, seq⟩ := m
  obtain ⟨now, message, rfl, hcheck⟩ := h.arm
  have hother : state.1.operatorClient ≠ some client := by
    rw [hstate.client]
    intro hsame
    obtain ⟨last, hlast, hclient⟩ := Option.map_eq_some_iff.mp hsame
    exact h.other last hlast hclient
  have hpast : GetsPast state.1 .arm client seq := by
    refine ⟨h.saving, h.ready, ?_⟩
    rw [if_neg hother]
    exact ⟨rfl, h.armed⟩
  rw [SerialLink.taken, hcheck]
  dsimp only
  rcases accept_cases state.1 now .arm client (checkMessage_nonneg hcheck) with
    ⟨-, hrefused⟩ | ⟨haccept, -⟩
  · exact absurd hpast hrefused
  · rw [haccept]

/-- And the numbers have grown. -/
structure Numbered (state : Server F × List (String × ℤ)) : Prop extends Owned state where
  growing : Growing state.2

omit [Double F] in
/-- The owner's numbers are up to the last one remembered. -/
theorem Numbered.le_sequence {state : Server F × List (String × ℤ)} (h : Numbered state)
    {m : String × ℤ} (hm : m ∈ state.2) (howner : state.1.operatorClient = some m.1) :
    m.2 ≤ state.1.operatorSequence := by
  obtain ⟨s, numbers⟩ := state
  cases numbers with
  | nil => cases hm
  | cons last numbers =>
    have hnumber : last.2 = s.operatorSequence := h.number last rfl
    have hclient : s.operatorClient = some last.1 := h.client
    have howner : s.operatorClient = some m.1 := howner
    show m.2 ≤ s.operatorSequence
    rw [← hnumber]
    rcases List.mem_cons.mp hm with rfl | hm
    · exact le_rfl
    · have hsame : last.1 = m.1 := Option.some.inj (hclient.symm.trans howner)
      exact ((List.pairwise_cons.mp h.growing).1 m hm hsame).le

theorem Numbered.step {state : Server F × List (String × ℤ)} (h : Numbered state) {e : Event F}
    (hcontinues : Continues state e) : Numbered (orderMachine.step state e) := by
  refine ⟨h.toOwned.step e, ?_⟩
  obtain ⟨s, numbers⟩ := state
  show Growing ((taken s e).toList ++ numbers)
  rcases step_taken s e with
    ⟨htaken, -⟩ | ⟨now, action, message, client, seq, rfl, hcheck, hpast, htaken, -, -⟩
  · rw [htaken]
    exact h.growing
  · rw [htaken]
    refine List.pairwise_cons.mpr ⟨?_, h.growing⟩
    -- the message is newer than everything taken from its client
    intro earlier hearlier hsame
    obtain ⟨hsaving, hready, howner⟩ := hpast
    by_cases hown : s.operatorClient = some client
    · rw [if_pos hown] at howner
      exact lt_of_le_of_lt (h.le_sequence hearlier (hown.trans (congrArg some hsame))) howner
    · rw [if_neg hown] at howner
      obtain ⟨rfl, harmed⟩ := howner
      refine hcontinues (client, seq) ⟨⟨now, message, rfl, hcheck⟩, hsaving, hready, harmed, ?_⟩
        earlier hearlier hsame
      rintro last hlast rfl
      exact hown (h.client.trans (congrArg (Option.map Prod.fst) hlast))

theorem Numbered.oldIgnored {state : Server F × List (String × ℤ)} (h : Numbered state)
    {e : Event F} (hcontinues : Continues state e) : OldIgnored state e := by
  rintro now action message rfl m hm ⟨earlier, hearlier, hsame, hold⟩
  obtain ⟨s, numbers⟩ := state
  rcases step_taken s (.operator now action message) with
    ⟨-, -, -, hunchanged⟩ | ⟨now', action', message', client, seq, hevent, hcheck, -, htaken, -, -⟩
  · exact hunchanged now action message rfl
  · -- an old number is not taken
    have hgrowing : Growing ((taken s (.operator now action message)).toList ++ numbers) :=
      (h.step hcontinues).growing
    obtain ⟨rfl, rfl, rfl⟩ : now = now' ∧ action = action' ∧ message = message' := by
      cases hevent
      exact ⟨rfl, rfl, rfl⟩
    obtain rfl : m = (client, seq) := Except.ok.inj (hm.symm.trans hcheck)
    rw [htaken] at hgrowing
    have hnew := (List.pairwise_cons.mp hgrowing).1 earlier hearlier hsame
    omega

/-- What was taken stays in the history. -/
theorem orderMachine_suffix (state : Server F × List (String × ℤ)) (es : List (Event F)) :
    state.2 <:+ (orderMachine.run state es).2 := by
  induction es generalizing state with
  | nil => exact List.suffix_rfl
  | cons e es ih => exact (List.suffix_append _ _).trans (ih (orderMachine.step state e))

theorem continues_of_growing {state : Server F × List (String × ℤ)} {es : List (Event F)}
    (hstate : Owned state) (h : Growing (orderMachine.run state es).2) :
    orderMachine.Always Continues state es := by
  induction es generalizing state with
  | nil => trivial
  | cons e es ih =>
    refine ⟨?_, ih (hstate.step e) h⟩
    intro m hm earlier hearlier hsame
    have hnext : Growing (orderMachine.step state e).2 :=
      h.sublist (orderMachine_suffix (orderMachine.step state e) es).sublist
    have htaken : (orderMachine.step state e).2 = m :: state.2 := by
      show (taken state.1 e).toList ++ state.2 = _
      rw [hm.taken hstate]
      rfl
    rw [htaken] at hnext
    exact (List.pairwise_cons.mp hnext).1 earlier hearlier hsame

/-- Each client's numbers grow, and old messages change nothing, exactly if every client
that takes the controls over goes on with its own numbers. -/
theorem numbers_grow_iff (stored : List TrialResult) (es : List (Event F)) :
    Growing (orderMachine.run (boot stored, []) es).2 ∧
        orderMachine.Always OldIgnored (boot stored, []) es ↔
      orderMachine.Always Continues (boot stored, []) es := by
  have hboot : Numbered ((boot stored, []) : Server F × List (String × ℤ)) :=
    ⟨⟨rfl, nofun⟩, List.Pairwise.nil⟩
  constructor
  · rintro ⟨hgrowing, -⟩
    exact continues_of_growing hboot.toOwned hgrowing
  · intro hcontinues
    have hignored := Machine.always_of_guarded (I := Numbered) (fun _ _ h => h.step)
      (fun _ _ h => h.oldIgnored) hboot hcontinues
    refine ⟨?_, hignored⟩
    have hrun {state : Server F × List (String × ℤ)} (h : Numbered state) {es : List (Event F)}
        (hcontinues : orderMachine.Always Continues state es) :
        Numbered (orderMachine.run state es) := by
      induction es generalizing state with
      | nil => exact h
      | cons e es ih => exact ih (h.step hcontinues.1) hcontinues.2
    exact (hrun hboot hcontinues).growing

end Order

/-- A client arms the controls, both clients are stopped in between, and a copy of the
first message arrives. -/
def repeatedRun : List (Event ℚ) :=
  let arm (client : String) (seq : ℤ) : Event ℚ :=
    .operator 0 .arm { operatorMessage seq "" with client := some client }
  connect ++ [arm "operator-1" 5, .halt 0 false, arm "operator-2" 1, .halt 0 false,
    arm "operator-1" 5]

/-- The copy is taken, and arms the controls again. -/
theorem number_repeated :
    ¬Growing (orderMachine.run (boot [], []) repeatedRun).2 ∧
      (linkMachine.run (boot []) repeatedRun.dropLast).armed = false ∧
      (linkMachine.run (boot []) repeatedRun).armed = true := by
  decide +kernel

end SerialLink
