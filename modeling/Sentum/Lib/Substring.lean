import Mathlib.Data.List.Basic

/-!
# The first occurrence of a pattern

`after pattern text` is what follows the first occurrence of `pattern` in
`text`; `FirstAt` says the same without the search.  A pattern cannot start
inside a stretch that lacks its first letter, so the search skips it.
-/

namespace Substring

variable {α : Type*} [BEq α]

def after (pattern text : List α) : Option (List α) := (text.dropInfix? pattern).map Prod.snd

/-- `rest` follows an occurrence of `pattern`, and no occurrence starts before that one. -/
def FirstAt (pattern text rest : List α) : Prop :=
  ∃ before, text = before ++ pattern ++ rest ∧
    ∀ b r, text = b ++ pattern ++ r → before.length ≤ b.length

section
variable [LawfulBEq α] {pattern text rest : List α}

theorem after_eq_some : after pattern text = some rest ↔ FirstAt pattern text rest := by
  unfold after FirstAt
  rw [Option.map_eq_some_iff]
  constructor
  · rintro ⟨⟨before, r⟩, h, rfl⟩
    obtain ⟨⟨p, rfl, hp⟩, hfirst⟩ := List.dropInfix?_eq_some_iff.mp h
    rw [eq_of_beq hp]
    exact ⟨before, rfl, fun b r hb => hfirst b pattern r (by rw [eq_of_beq hp, hb]) BEq.rfl⟩
  · rintro ⟨before, rfl, hfirst⟩
    refine ⟨(before, rest), List.dropInfix?_eq_some_iff.mpr ⟨⟨pattern, rfl, BEq.rfl⟩, ?_⟩, rfl⟩
    intro b p r hb hp
    rw [eq_of_beq hp] at hb
    exact hfirst b r hb

theorem after_self (pattern rest : List α) : after pattern (pattern ++ rest) = some rest :=
  after_eq_some.mpr ⟨[], rfl, fun b _ _ => Nat.zero_le b.length⟩

/-- A letter where the pattern does not start is skipped. -/
theorem after_cons {c : α} (h : ¬ pattern <+: c :: text) :
    after pattern (c :: text) = after pattern text := by
  have hiff : ∀ rest, after pattern (c :: text) = some rest ↔ after pattern text = some rest := by
    intro rest
    rw [after_eq_some, after_eq_some]
    constructor
    · rintro ⟨before, hsplit, hfirst⟩
      cases before with
      | nil => exact absurd ⟨rest, hsplit.symm⟩ h
      | cons d before =>
        simp only [List.cons_append, List.cons.injEq] at hsplit
        refine ⟨before, hsplit.2, fun b r hb => ?_⟩
        have := hfirst (c :: b) r (by rw [hb]; rfl)
        simp only [List.length_cons] at this
        omega
    · rintro ⟨before, rfl, hfirst⟩
      refine ⟨c :: before, rfl, fun b r hb => ?_⟩
      cases b with
      | nil => exact absurd ⟨r, hb.symm⟩ h
      | cons d b =>
        simp only [List.cons_append, List.cons.injEq] at hb
        have := hfirst b r hb.2
        simp only [List.length_cons]
        omega
  exact Option.ext hiff

theorem after_cons_ne {x c : α} (h : x ≠ c) :
    after (x :: pattern) (c :: text) = after (x :: pattern) text := by
  apply after_cons
  intro hp
  exact h (List.cons_prefix_cons.mp hp).1

theorem after_append {x : α} {s : List α} (h : x ∉ s) :
    after (x :: pattern) (s ++ text) = after (x :: pattern) text := by
  induction s with
  | nil => rfl
  | cons c s ih =>
    rw [List.mem_cons, not_or] at h
    rw [List.cons_append, after_cons_ne h.1, ih h.2]

end

end Substring
