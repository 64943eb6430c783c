import Mathlib.Data.List.DropRight
import Mathlib.Data.List.TakeWhile
import Mathlib.Tactic.Common

/-!
# Trimming

Removing the blanks at both ends of a list, where a Boolean predicate says which elements
are blank. A list without blanks at its ends is `Tight`; trimming is the projection onto
the tight lists.

## Main results

* `trim_padded`: a tight list between blanks is what trimming leaves.
* `trim_append`: behind a list with a non-blank element, a tight list stays whole.
* `exists_trim_append`: what more text does to a trimmed text.
* `tight_trim`: what is left after trimming is tight.
* `mem_trim`: a non-blank is never trimmed.
* `trim_eq_nil_iff`: only blanks trim to nothing.
-/

namespace Trimming

variable {α : Type*} (blank : α → Bool)

/-- Remove the blanks at both ends. -/
def trim (xs : List α) : List α :=
  (xs.dropWhile blank).rdropWhile blank

/-- No blank at either end. -/
def Tight (xs : List α) : Prop :=
  (∀ x ∈ xs.head?, blank x = false) ∧ ∀ x ∈ xs.getLast?, blank x = false

instance (xs : List α) : Decidable (Tight blank xs) :=
  inferInstanceAs (Decidable (_ ∧ _))

variable {blank}

theorem tight_nil : Tight blank [] := by
  simp [Tight]

/-- A list of non-blanks is tight. -/
theorem tight_of_forall {xs : List α} (h : ∀ x ∈ xs, blank x = false) : Tight blank xs :=
  ⟨fun x hx => h x (List.mem_of_mem_head? hx), fun x hx => h x (List.mem_of_mem_getLast? hx)⟩

/-- Nothing is dropped in front of a non-blank. -/
theorem dropWhile_of_head {xs : List α} (h : ∀ x ∈ xs.head?, blank x = false) :
    xs.dropWhile blank = xs := by
  cases xs with
  | nil => rfl
  | cons x xs => simp [h x rfl]

/-- Nothing is dropped behind a non-blank. -/
theorem rdropWhile_of_getLast {xs : List α} (h : ∀ x ∈ xs.getLast?, blank x = false) :
    xs.rdropWhile blank = xs :=
  List.rdropWhile_eq_self_iff.mpr fun hne => by
    simp [h _ (List.getLast?_eq_some_getLast hne)]

/-- Trimming does nothing to a tight list. -/
theorem trim_of_tight {xs : List α} (h : Tight blank xs) : trim blank xs = xs := by
  rw [trim, dropWhile_of_head h.1, rdropWhile_of_getLast h.2]

/-- Without a blank at its front a list only loses something at its end. -/
theorem trim_prefix_of_head {xs : List α} (h : ∀ x ∈ xs.head?, blank x = false) :
    trim blank xs <+: xs := by
  rw [trim, dropWhile_of_head h]
  exact List.rdropWhile_prefix blank xs

/-- Blanks in front do not matter. -/
theorem trim_blank_append {pre : List α} (hpre : ∀ x ∈ pre, blank x = true) (xs : List α) :
    trim blank (pre ++ xs) = trim blank xs := by
  rw [trim, List.dropWhile_append_of_pos hpre, trim]

/-- Blanks behind do not matter. -/
theorem rdropWhile_append_blank {post : List α} (hpost : ∀ x ∈ post, blank x = true)
    (xs : List α) : (xs ++ post).rdropWhile blank = xs.rdropWhile blank := by
  induction post using List.reverseRecOn with
  | nil => rw [List.append_nil]
  | append_singleton post x ih =>
      rw [← List.append_assoc, List.rdropWhile_concat_pos _ _ _ (hpost x (by simp))]
      exact ih fun y hy => hpost y (List.mem_append_left _ hy)

/-- **A tight list between blanks** is what trimming leaves. -/
theorem trim_padded {pre mid post : List α} (hpre : ∀ x ∈ pre, blank x = true)
    (hmid : Tight blank mid) (hpost : ∀ x ∈ post, blank x = true) :
    trim blank (pre ++ mid ++ post) = mid := by
  rw [List.append_assoc, trim_blank_append hpre]
  cases mid with
  | nil =>
      have hdrop : post.dropWhile blank = [] := List.dropWhile_eq_nil_iff.mpr hpost
      rw [List.nil_append, trim, hdrop, List.rdropWhile_nil]
  | cons x mid =>
      rw [trim, dropWhile_of_head (by simpa using hmid.1), rdropWhile_append_blank hpost,
        rdropWhile_of_getLast hmid.2]

/-- **Only blanks trim to nothing.** -/
theorem trim_eq_nil_iff {xs : List α} :
    trim blank xs = [] ↔ ∀ x ∈ xs, blank x = true := by
  constructor
  · intro h
    rw [trim, List.rdropWhile_eq_nil_iff] at h
    have hhead := List.head?_dropWhile_not blank xs
    rw [← List.dropWhile_eq_nil_iff]
    cases hd : xs.dropWhile blank with
    | nil => rfl
    | cons x rest =>
        rw [hd] at h hhead
        have hx := h x List.mem_cons_self
        simp [hx] at hhead
  · intro h
    rw [trim, List.dropWhile_eq_nil_iff.mpr h, List.rdropWhile_nil]

/-- **Behind a list with a non-blank**, a list that ends in a non-blank stays whole. -/
theorem trim_append {xs ys : List α} (hys : ys ≠ []) (hlast : ∀ x ∈ ys.getLast?, blank x = false)
    (hxs : ∃ x ∈ xs, blank x = false) :
    trim blank (xs ++ ys) = xs.dropWhile blank ++ ys := by
  have hne : xs.dropWhile blank ≠ [] := by
    rw [Ne, List.dropWhile_eq_nil_iff]
    rintro hall
    obtain ⟨x, hx, hb⟩ := hxs
    rw [hall x hx] at hb
    cases hb
  have hdrop : (xs ++ ys).dropWhile blank = xs.dropWhile blank ++ ys := by
    rw [List.dropWhile_append]
    simp [hne]
  rw [trim, hdrop]
  refine rdropWhile_of_getLast fun x hx => hlast x ?_
  rwa [List.getLast?_append_of_ne_nil _ hys] at hx

/-- A non-blank at the end stays there. -/
theorem getLast?_trim_concat (xs : List α) {x : α} (hx : blank x = false) :
    (trim blank (xs ++ [x])).getLast? = some x := by
  have htight : Tight blank [x] := tight_of_forall fun y hy => List.mem_singleton.mp hy ▸ hx
  by_cases hall : ∀ y ∈ xs, blank y = true
  · rw [trim_blank_append hall, trim_of_tight htight]
    rfl
  · push Not at hall
    obtain ⟨y, hy, hb⟩ := hall
    rw [trim_append (List.cons_ne_nil x []) htight.2 ⟨y, hy, Bool.eq_false_iff.mpr hb⟩]
    exact List.getLast?_concat

/-- **What is left after trimming is tight.** -/
theorem tight_trim (xs : List α) : Tight blank (trim blank xs) := by
  constructor
  · intro x hx
    have hprefix : trim blank xs <+: xs.dropWhile blank := List.rdropWhile_prefix blank _
    have hhead := List.head?_dropWhile_not blank xs
    obtain ⟨rest, hrest⟩ := hprefix
    have hx' : x ∈ (xs.dropWhile blank).head? := by
      rw [← hrest, List.head?_append]
      rw [Option.mem_def] at hx
      rw [hx]
      rfl
    rw [Option.mem_def] at hx'
    simpa [hx'] using hhead
  · intro x hx
    obtain ⟨hne, rfl⟩ := List.mem_getLast?_eq_getLast hx
    exact Bool.eq_false_iff.mpr (List.rdropWhile_last_not blank (xs.dropWhile blank) hne)

/-- A non-blank is not dropped. -/
theorem mem_dropWhile {xs : List α} {x : α} (hx : x ∈ xs) (hb : blank x = false) :
    x ∈ xs.dropWhile blank := by
  rw [← List.takeWhile_append_dropWhile (p := blank) (l := xs), List.mem_append] at hx
  rcases hx with hx | hx
  · have hblank := List.mem_takeWhile_imp hx
    rw [hb] at hblank
    cases hblank
  · exact hx

/-- **A non-blank is never trimmed.** -/
theorem mem_trim {xs : List α} {x : α} (hx : x ∈ xs) (hb : blank x = false) :
    x ∈ trim blank xs := by
  rw [trim, List.rdropWhile, List.mem_reverse]
  exact mem_dropWhile (List.mem_reverse.mpr (mem_dropWhile hx hb)) hb

/-- The trimmed list consists of elements of the list. -/
theorem mem_of_mem_trim {xs : List α} {x : α} (h : x ∈ trim blank xs) : x ∈ xs :=
  List.dropWhile_subset blank ((List.rdropWhile_prefix blank _).subset h)

/-- What is trimmed, and what is left. -/
theorem exists_padding (blank : α → Bool) (xs : List α) : ∃ pre post, (∀ x ∈ pre, blank x = true) ∧
    (∀ x ∈ post, blank x = true) ∧ xs = pre ++ (trim blank xs ++ post) := by
  refine ⟨xs.takeWhile blank, (xs.dropWhile blank).rtakeWhile blank,
    fun x hx => List.mem_takeWhile_imp hx, fun x hx => List.mem_rtakeWhile_imp hx, ?_⟩
  rw [trim, List.rdropWhile_append_rtakeWhile, List.takeWhile_append_dropWhile]

/-- More blanks change nothing. -/
theorem trim_append_blank {post : List α} (hpost : ∀ x ∈ post, blank x = true) (xs : List α) :
    trim blank (xs ++ post) = trim blank xs := by
  obtain ⟨pre, post', hpre, hpost', heq⟩ := exists_padding blank xs
  have hboth : ∀ x ∈ post' ++ post, blank x = true := fun x hx =>
    (List.mem_append.mp hx).elim (hpost' x) (hpost x)
  calc trim blank (xs ++ post)
      = trim blank (pre ++ trim blank xs ++ (post' ++ post)) := by
        conv_lhs => rw [heq]
        simp only [List.append_assoc]
    _ = trim blank xs := trim_padded hpre (tight_trim xs) hboth

/-- The end of a text behind which there is a non-blank. -/
theorem rdropWhile_append {ys : List α} (hys : ∃ y ∈ ys, blank y = false) (xs : List α) :
    (xs ++ ys).rdropWhile blank = xs ++ ys.rdropWhile blank := by
  obtain ⟨y, hy, hb⟩ := hys
  have hne : ys.reverse.dropWhile blank ≠ [] :=
    List.ne_nil_of_mem (mem_dropWhile (List.mem_reverse.mpr hy) hb)
  rw [List.rdropWhile, List.rdropWhile, List.reverse_append, List.dropWhile_append]
  simp [hne]

/-- **More text with a non-blank** leaves the trimmed text as it is, and something behind
it. -/
theorem exists_trim_append {xs ys : List α} (hxs : trim blank xs ≠ [])
    (hys : ∃ y ∈ ys, blank y = false) : ∃ mid, (∃ y ∈ mid, blank y = false) ∧
      trim blank (xs ++ ys) = trim blank xs ++ mid := by
  obtain ⟨pre, post, hpre, -, heq⟩ := exists_padding blank xs
  have hmore : ∃ y ∈ post ++ ys, blank y = false := by
    obtain ⟨y, hy, hb⟩ := hys
    exact ⟨y, List.mem_append_right post hy, hb⟩
  have hhead : ∀ x ∈ (trim blank xs ++ (post ++ ys)).head?, blank x = false := by
    intro x hx
    rw [List.head?_append_of_ne_nil _ hxs] at hx
    exact (tight_trim xs).1 x hx
  refine ⟨(post ++ ys).rdropWhile blank, ?_, ?_⟩
  · obtain ⟨y, hy, hb⟩ := hmore
    refine ⟨y, ?_, hb⟩
    rw [List.rdropWhile, List.mem_reverse]
    exact mem_dropWhile (List.mem_reverse.mpr hy) hb
  · calc trim blank (xs ++ ys)
        = trim blank (pre ++ (trim blank xs ++ (post ++ ys))) := by
          conv_lhs => rw [heq]
          simp only [List.append_assoc]
      _ = trim blank (trim blank xs ++ (post ++ ys)) := trim_blank_append hpre _
      _ = trim blank xs ++ (post ++ ys).rdropWhile blank := by
          rw [trim, dropWhile_of_head hhead, rdropWhile_append hmore]

end Trimming
