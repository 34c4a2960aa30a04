/-
The successive pairs of a list.

* `successive_concat` — one more element adds one pair;
* `successive_append` — the pairs of two parts, and the one between them;
* `successive_reverse` — the pairs of the reversed list are swapped;
* `sum_successive_sub` — the changes along a list add up;
* `filter_successive_add`, `filter_successive_skip` — the pairs of a kind, after one more
  element.
-/
import Mathlib

namespace List

variable {α β : Type*}

/-- Each element but the last with the one after it. -/
def successive (l : List α) : List (α × α) := l.zip l.tail

@[simp] theorem successive_nil : successive ([] : List α) = [] := rfl

@[simp] theorem successive_singleton (a : α) : successive [a] = [] := rfl

theorem successive_cons_cons (a b : α) (l : List α) :
    successive (a :: b :: l) = (a, b) :: successive (b :: l) := rfl

/-- The pairs of two parts, and the one between them. -/
theorem successive_append (l l' : List α) (a b : α) :
    successive (l ++ a :: b :: l') = successive (l ++ [a]) ++ (a, b) :: successive (b :: l') := by
  induction l with
  | nil => rfl
  | cons c l ih =>
    cases l with
    | nil => rfl
    | cons d l => exact congrArg (cons (c, d)) ih

/-- One more element adds one pair. -/
theorem successive_concat (l : List α) (a b : α) :
    successive (l ++ [a] ++ [b]) = successive (l ++ [a]) ++ [(a, b)] := by
  rw [append_assoc]
  exact successive_append l [] a b

theorem successive_map (f : α → β) (l : List α) :
    successive (l.map f) = (successive l).map (Prod.map f f) := by
  rw [successive, successive, ← map_tail, zip_map]

theorem successive_reverse (l : List α) :
    successive l.reverse = (successive l).reverse.map Prod.swap := by
  induction l with
  | nil => rfl
  | cons a l ih =>
    cases l with
    | nil => rfl
    | cons b l =>
      rw [reverse_cons, reverse_cons, successive_concat, ← reverse_cons, ih, successive_cons_cons,
        reverse_cons, map_append]
      rfl

/-- The changes from each element to the next add up to the whole change. -/
theorem sum_successive_sub {M : Type*} [AddCommGroup M] (f : α → M) (l : List α) (a b : α) :
    ((successive (a :: l ++ [b])).map fun p => f p.2 - f p.1).sum = f b - f a := by
  induction l using List.reverseRecOn generalizing b with
  | nil => simp [successive_cons_cons]
  | append_singleton l c ih =>
    have hlast := ih c
    have hpairs := successive_concat (a :: l) c b
    rw [← cons_append, hpairs, map_append, sum_append, hlast]
    simp

section Filter

variable {P : α × α → Prop} [DecidablePred P] {l : List α} {b : α}

/-- One more element makes a pair of the kind with the last one. -/
theorem filter_successive_add {a : α} (hlast : l.getLast? = some a) (h : P (a, b)) :
    (l ++ [b]).successive.filter P = l.successive.filter P ++ [(a, b)] := by
  obtain ⟨earlier, rfl⟩ := getLast?_eq_some_iff.mp hlast
  rw [successive_concat, filter_append, filter_cons_of_pos (by simpa using h)]
  rfl

/-- Or none. -/
theorem filter_successive_skip (h : ∀ a, l.getLast? = some a → ¬P (a, b)) :
    (l ++ [b]).successive.filter P = l.successive.filter P := by
  rcases eq_nil_or_concat l with rfl | ⟨earlier, last, rfl⟩
  · rfl
  · rw [concat_eq_append] at h ⊢
    have hlast := h last getLast?_concat
    rw [successive_concat, filter_append, filter_cons_of_neg (by simpa using hlast)]
    exact append_nil _

end Filter

end List
