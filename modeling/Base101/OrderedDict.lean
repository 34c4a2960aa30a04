/-
Dictionaries that keep the order in which their keys were first set.

Setting a key again overwrites its value in place.  A dictionary filled from a list holds
under each key the value that was set last, and one that groups a list by a first key
holds in each group the dictionary of the elements with that key.

* `mem_insert` — what is in a dictionary after a key is set;
* `mem_ofList` — what a dictionary filled from a list holds;
* `get?_insertAll_of_mem`, `get?_insertAll_of_notMem` — a dictionary after several keys are set;
* `get?_group` — the group of a key.
-/
import Mathlib

/-- A list of distinct keys, each with its value. -/
structure OrderedDict (κ α : Type*) where
  items : List (κ × α)
  nodup : (items.map Prod.fst).Nodup

namespace OrderedDict

variable {γ κ α : Type*}

/-- `{}`. -/
def empty : OrderedDict κ α := ⟨[], List.nodup_nil⟩

def values (d : OrderedDict κ α) : List α := d.items.map Prod.snd

variable [DecidableEq κ] {d : OrderedDict κ α} {k k' : κ} {a a' : α}

def get? (d : OrderedDict κ α) (k : κ) : Option α := d.items.lookup k

theorem get?_eq_some_iff : d.get? k = some a ↔ (k, a) ∈ d.items := by
  rw [get?, List.lookup_eq_some_iff]
  constructor
  · rintro ⟨before, after, hitems, -⟩
    rw [hitems]
    simp
  · intro hmem
    obtain ⟨before, after, hitems⟩ := List.append_of_mem hmem
    refine ⟨before, after, hitems, ?_⟩
    -- the key is in no other pair
    intro p hp
    have hnodup := d.nodup
    rw [hitems, List.map_append, List.map_cons, List.nodup_append] at hnodup
    have hne := hnodup.2.2 p.1 (List.mem_map_of_mem hp) k List.mem_cons_self
    simpa using hne.symm

/-! ### Setting a key -/

/-- The first pair with the key is overwritten, or one is added at the end. -/
def setItem (k : κ) (a : α) : List (κ × α) → List (κ × α)
  | [] => [(k, a)]
  | (k', a') :: items => if k' = k then (k, a) :: items else (k', a') :: setItem k a items

theorem keys_setItem (k : κ) (a : α) (items : List (κ × α)) :
    (setItem k a items).map Prod.fst =
      if k ∈ items.map Prod.fst then items.map Prod.fst else items.map Prod.fst ++ [k] := by
  induction items with
  | nil => simp [setItem]
  | cons p items ih =>
    obtain ⟨k', a'⟩ := p
    rw [setItem]
    by_cases hk : k' = k
    · rw [if_pos hk, hk]
      simp
    · rw [if_neg hk, List.map_cons, ih, List.map_cons]
      have hmem : k ∈ k' :: items.map Prod.fst ↔ k ∈ items.map Prod.fst := by
        simp [Ne.symm hk]
      by_cases htail : k ∈ items.map Prod.fst
      · rw [if_pos htail, if_pos (hmem.mpr htail)]
      · rw [if_neg htail, if_neg fun h => htail (hmem.mp h)]
        rfl

theorem mem_setItem {items : List (κ × α)} (hnodup : (items.map Prod.fst).Nodup) :
    (k', a') ∈ setItem k a items ↔ k' = k ∧ a' = a ∨ k' ≠ k ∧ (k', a') ∈ items := by
  induction items with
  | nil =>
    rw [setItem, List.mem_singleton, Prod.mk.injEq]
    simp
  | cons p items ih =>
    obtain ⟨k₁, a₁⟩ := p
    rw [List.map_cons, List.nodup_cons] at hnodup
    rw [setItem]
    by_cases hk : k₁ = k
    · -- no later pair has the key
      rw [if_pos hk, List.mem_cons, List.mem_cons, Prod.mk.injEq, Prod.mk.injEq]
      have hlater : (k', a') ∈ items → k' ≠ k := by
        intro hmem heq
        exact hnodup.1 (List.mem_map.mpr ⟨_, hmem, heq.trans hk.symm⟩)
      constructor
      · rintro (h | h)
        · exact .inl h
        · exact .inr ⟨hlater h, .inr h⟩
      · rintro (h | ⟨hne, h | h⟩)
        · exact .inl h
        · exact absurd (h.1.trans hk) hne
        · exact .inr h
    · rw [if_neg hk, List.mem_cons, List.mem_cons, Prod.mk.injEq, ih hnodup.2]
      constructor
      · rintro (h | h | h)
        · exact .inr ⟨by rw [h.1]; exact hk, .inl h⟩
        · exact .inl h
        · exact .inr ⟨h.1, .inr h.2⟩
      · rintro (h | ⟨hne, h | h⟩)
        · exact .inr (.inl h)
        · exact .inl h
        · exact .inr (.inr ⟨hne, h⟩)

/-- `d[k] = a`. -/
def insert (d : OrderedDict κ α) (k : κ) (a : α) : OrderedDict κ α where
  items := setItem k a d.items
  nodup := by
    rw [keys_setItem]
    split
    · exact d.nodup
    next hk => exact List.nodup_append.mpr ⟨d.nodup, List.nodup_singleton k, by
        intro x hx y hy heq
        rw [List.mem_singleton.mp hy] at heq
        exact hk (heq ▸ hx)⟩

theorem mem_insert :
    (k', a') ∈ (d.insert k a).items ↔ k' = k ∧ a' = a ∨ k' ≠ k ∧ (k', a') ∈ d.items :=
  mem_setItem d.nodup

theorem get?_insert : (d.insert k a).get? k' = if k' = k then some a else d.get? k' := by
  refine Option.ext fun b => ?_
  rw [get?_eq_some_iff, mem_insert]
  by_cases hk : k' = k
  · simp [hk, eq_comm]
  · rw [if_neg hk, get?_eq_some_iff]
    simp [hk]

/-! ### Filling a dictionary -/

/-- `{k: a for (k, a) in l}`. -/
def ofList (l : List (κ × α)) : OrderedDict κ α := l.foldl (fun d p => d.insert p.1 p.2) empty

theorem ofList_concat (l : List (κ × α)) (p : κ × α) :
    ofList (l ++ [p]) = (ofList l).insert p.1 p.2 := by
  rw [ofList, List.foldl_append]
  rfl

/-- Under each key is the value that was set last. -/
theorem mem_ofList {l : List (κ × α)} : (k, a) ∈ (ofList l).items ↔
    ∃ before after, l = before ++ (k, a) :: after ∧ k ∉ after.map Prod.fst := by
  induction l using List.reverseRecOn with
  | nil => simp [ofList, empty]
  | append_singleton l p ih =>
    obtain ⟨k₁, a₁⟩ := p
    rw [ofList_concat, mem_insert, ih]
    constructor
    · rintro (⟨rfl, rfl⟩ | ⟨hne, before, after, rfl, hlast⟩)
      · exact ⟨l, [], rfl, List.not_mem_nil⟩
      · refine ⟨before, after ++ [(k₁, a₁)], by simp, ?_⟩
        rw [List.map_append, List.mem_append]
        rintro (h | h)
        · exact hlast h
        · exact hne (by simpa using h)
    · rintro ⟨before, after, hsplit, hlast⟩
      rcases List.eq_nil_or_concat after with rfl | ⟨middle, q, rfl⟩
      · -- it was the last one
        obtain ⟨-, hp⟩ := List.append_inj' hsplit rfl
        have hpair := List.cons.inj hp
        exact .inl ⟨(congrArg Prod.fst hpair.1).symm, (congrArg Prod.snd hpair.1).symm⟩
      · rw [List.concat_eq_append, ← List.cons_append, ← List.append_assoc] at hsplit
        obtain ⟨rfl, hq⟩ := List.append_inj' hsplit rfl
        obtain ⟨rfl, -⟩ := List.cons.inj hq
        rw [List.concat_eq_append, List.map_append, List.mem_append, not_or] at hlast
        exact .inr ⟨by simpa using hlast.2, before, middle, rfl, hlast.1⟩

/-! ### Setting several keys -/

def keys (d : OrderedDict κ α) : List κ := d.items.map Prod.fst

/-- `d.update(l)`. -/
def insertAll (d : OrderedDict κ α) (l : List (κ × α)) : OrderedDict κ α :=
  l.foldl (fun d p => d.insert p.1 p.2) d

omit [DecidableEq κ] in
theorem mem_keys : k ∈ d.keys ↔ ∃ a, (k, a) ∈ d.items := by simp [keys]

theorem mem_keys_of_get? (h : d.get? k = some a) : k ∈ d.keys :=
  mem_keys.mpr ⟨a, get?_eq_some_iff.mp h⟩

theorem keys_insert : (d.insert k a).keys = if k ∈ d.keys then d.keys else d.keys ++ [k] :=
  keys_setItem k a d.items

theorem insertAll_cons (d : OrderedDict κ α) (p : κ × α) (l : List (κ × α)) :
    d.insertAll (p :: l) = (d.insert p.1 p.2).insertAll l := rfl

theorem insertAll_append (d : OrderedDict κ α) (l l' : List (κ × α)) :
    d.insertAll (l ++ l') = (d.insertAll l).insertAll l' := List.foldl_append

theorem get?_insertAll_of_notMem {l : List (κ × α)} (h : k ∉ l.map Prod.fst) :
    (d.insertAll l).get? k = d.get? k := by
  induction l generalizing d with
  | nil => rfl
  | cons p l ih =>
    rw [List.map_cons, List.mem_cons, not_or] at h
    rw [insertAll_cons, ih h.2, get?_insert, if_neg h.1]

theorem get?_insertAll_of_mem {l : List (κ × α)} (hnodup : (l.map Prod.fst).Nodup)
    (h : (k, a) ∈ l) : (d.insertAll l).get? k = some a := by
  induction l generalizing d with
  | nil => simp at h
  | cons p l ih =>
    rw [List.map_cons, List.nodup_cons] at hnodup
    rw [insertAll_cons]
    rcases List.mem_cons.mp h with rfl | h
    · rw [get?_insertAll_of_notMem hnodup.1, get?_insert, if_pos rfl]
    · exact ih hnodup.2 h

theorem keys_prefix_insertAll (d : OrderedDict κ α) (l : List (κ × α)) :
    d.keys <+: (d.insertAll l).keys := by
  induction l generalizing d with
  | nil => exact List.prefix_refl _
  | cons p l ih =>
    have hfirst : d.keys <+: (d.insert p.1 p.2).keys := by
      rw [keys_insert]
      split
      · exact List.prefix_refl _
      · exact List.prefix_append _ _
    exact hfirst.trans (ih _)

theorem keys_insertAll_of_subset {l : List (κ × α)} (h : ∀ p ∈ l, p.1 ∈ d.keys) :
    (d.insertAll l).keys = d.keys := by
  induction l generalizing d with
  | nil => rfl
  | cons p l ih =>
    have hkeys : (d.insert p.1 p.2).keys = d.keys := by
      rw [keys_insert, if_pos (h p List.mem_cons_self)]
    have htail : ∀ q ∈ l, q.1 ∈ (d.insert p.1 p.2).keys := by
      intro q hq
      rw [hkeys]
      exact h q (List.mem_cons_of_mem _ hq)
    rw [insertAll_cons, ih htail, hkeys]

/-- What holds of every pair set, and held of those that were there, holds of all. -/
theorem forall_mem_insertAll {P : κ × α → Prop} {l : List (κ × α)} (hd : ∀ p ∈ d.items, P p)
    (hl : ∀ p ∈ l, P p) : ∀ p ∈ (d.insertAll l).items, P p := by
  induction l generalizing d with
  | nil => exact hd
  | cons p l ih =>
    refine ih ?_ fun q hq => hl q (List.mem_cons_of_mem _ hq)
    rintro ⟨k, a⟩ hq
    rcases mem_insert.mp hq with ⟨rfl, rfl⟩ | ⟨-, hmem⟩
    · exact hl p List.mem_cons_self
    · exact hd _ hmem

/-! ### Grouping -/

/-- `d.setdefault(k, init)` and then a change of what is there. -/
def modify (d : OrderedDict κ α) (k : κ) (init : α) (f : α → α) : OrderedDict κ α :=
  d.insert k (f ((d.get? k).getD init))

variable [DecidableEq γ]

/-- Elements grouped by their first key, each group a dictionary. -/
def group (l : List (γ × κ × α)) : OrderedDict γ (OrderedDict κ α) :=
  l.foldl (fun g p => g.modify p.1 empty fun d => d.insert p.2.1 p.2.2) empty

theorem group_concat (l : List (γ × κ × α)) (p : γ × κ × α) :
    group (l ++ [p]) = (group l).modify p.1 empty fun d => d.insert p.2.1 p.2.2 := by
  rw [group, List.foldl_append]
  rfl

/-- The elements with a first key. -/
def members (c : γ) (l : List (γ × κ × α)) : List (κ × α) :=
  (l.filter fun p => p.1 = c).map Prod.snd

/-- The group of a key is the dictionary of the elements with it. -/
theorem get?_group (l : List (γ × κ × α)) (c : γ) :
    (group l).get? c = if c ∈ l.map Prod.fst then some (ofList (members c l)) else none := by
  induction l using List.reverseRecOn with
  | nil => rfl
  | append_singleton l p ih =>
    have hmembers : members c (l ++ [p]) =
        if p.1 = c then members c l ++ [p.2] else members c l := by
      rw [members, List.filter_append]
      by_cases hp : p.1 = c
      · rw [if_pos hp, List.filter_cons_of_pos (by simpa using hp), List.map_append]
        rfl
      · rw [if_neg hp, List.filter_cons_of_neg (by simpa using hp), List.filter_nil,
          List.append_nil]
        rfl
    rw [group_concat, modify, get?_insert, hmembers, List.map_append, List.map_singleton]
    by_cases hp : p.1 = c
    · rw [if_pos hp.symm, if_pos hp, if_pos (by simp [hp]), ofList_concat, hp, ih]
      by_cases hc : c ∈ l.map Prod.fst
      · rw [if_pos hc]
        rfl
      · -- the first of its group
        have hnone : members c l = [] := by
          rw [members, List.map_eq_nil_iff, List.filter_eq_nil_iff]
          intro q hq hqc
          exact hc (List.mem_map.mpr ⟨q, hq, by simpa using hqc⟩)
        rw [if_neg hc, hnone]
        rfl
    · have hmem : c ∈ l.map Prod.fst ++ [p.1] ↔ c ∈ l.map Prod.fst := by
        simp [Ne.symm hp]
      rw [if_neg (Ne.symm hp), if_neg hp, ih]
      by_cases hc : c ∈ l.map Prod.fst
      · rw [if_pos hc, if_pos (hmem.mpr hc)]
      · rw [if_neg hc, if_neg fun h => hc (hmem.mp h)]

end OrderedDict
