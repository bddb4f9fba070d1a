import Mathlib.Data.List.Basic

/-!
# Trimming, joining and digits

Trimming leaves a text alone that has nothing to trim at either end. A natural number is written with
digits and, in decimal, no superfluous zero, and its value is read off them again.
-/

namespace Gatehouse

/-! ## Trimming -/

section

variable {α : Type} {p : α → Bool} {l : List α}

theorem dropWhile_eq_self (h : ∀ a ∈ l.head?, p a = false) : l.dropWhile p = l := by
  cases l with
  | nil => rfl
  | cons a l => exact List.dropWhile_cons_of_neg (by simp [h a rfl])

/-- What is trimmed off both ends of a list is what stands outside its first and last elements that
stay. -/
theorem dropWhile_reverse_append {before after : List α} (hbefore : ∀ a ∈ before, p a = true)
    (hafter : ∀ a ∈ after, p a = true) (hhead : ∀ a ∈ l.head?, p a = false)
    (hlast : ∀ a ∈ l.getLast?, p a = false) :
    (((before ++ l ++ after).dropWhile p).reverse.dropWhile p).reverse = l := by
  rw [List.append_assoc, List.dropWhile_append_of_pos hbefore]
  cases l with
  | nil =>
    rw [List.nil_append, ← List.append_nil after, List.dropWhile_append_of_pos hafter]
    rfl
  | cons a l =>
    have hfirst : (a :: l ++ after).dropWhile p = a :: l ++ after := dropWhile_eq_self hhead
    have hrev : ∀ b ∈ (a :: l).reverse.head?, p b = false := by
      rw [List.head?_reverse]
      exact hlast
    rw [hfirst, List.reverse_append,
      List.dropWhile_append_of_pos fun b hb => hafter b (List.mem_reverse.mp hb),
      dropWhile_eq_self hrev, List.reverse_reverse]

/-- Nothing is dropped at either end of a list whose first and last elements stay. -/
theorem dropWhile_reverse_eq_self (hhead : ∀ a ∈ l.head?, p a = false)
    (hlast : ∀ a ∈ l.getLast?, p a = false) :
    ((l.dropWhile p).reverse.dropWhile p).reverse = l := by
  have hnone : ∀ a ∈ ([] : List α), p a = true := List.forall_mem_nil _
  simpa only [List.nil_append, List.append_nil] using
    dropWhile_reverse_append hnone hnone hhead hlast

end

/-! ## Joining -/

/-- What holds of the elements of a separator holds of what is joined if it holds of all pieces. -/
theorem forall_mem_intercalate {α : Type} {P : α → Prop} {sep : List α} {pieces : List (List α)}
    (hsep : ∀ a ∈ sep, P a) :
    (∀ a ∈ sep.intercalate pieces, P a) ↔ ∀ piece ∈ pieces, ∀ a ∈ piece, P a := by
  induction pieces with
  | nil => simp
  | cons piece pieces ih =>
    cases pieces with
    | nil => simp only [List.intercalate_singleton, List.forall_mem_singleton]
    | cons next pieces =>
      rw [List.intercalate_cons_cons, List.forall_mem_append, List.forall_mem_append, ih,
        and_iff_left hsep]
      simp only [List.forall_mem_cons]

namespace Text

/-! ## Digits -/

theorem isDigit_of_mem_toDigits {n : Nat} {c : Char} (h : c ∈ Nat.toDigits 10 n) : c.isDigit :=
  Nat.isDigit_of_mem_toDigits (by decide) (by decide) h

/-- Digits are digits in any base. -/
theorem exists_digitChar_of_mem_toDigits {base n : Nat} (hbase : 1 < base) {c : Char}
    (h : c ∈ Nat.toDigits base n) : ∃ d : Nat, c = d.digitChar := by
  induction n using Nat.strongRecOn with
  | _ n ih =>
    rcases Nat.lt_or_ge n base with hlt | hge
    · rw [Nat.toDigits_of_lt_base hlt, List.mem_singleton] at h
      exact ⟨n, h⟩
    · rw [Nat.toDigits_of_base_le hbase hge, List.mem_append, List.mem_singleton] at h
      rcases h with h | h
      · exact ih (n / base) (Nat.div_lt_self (by omega) hbase) h
      · exact ⟨n % base, h⟩

/-- The digits of a number give its value. -/
theorem foldl_toDigits (n : Nat) :
    (Nat.toDigits 10 n).foldl (fun m c => m * 10 + (c.toNat - 48)) 0 = n := by
  have h := Nat.ofDigitChars_ten_toDigits (n := n)
  rw [Nat.ofDigitChars_eq_foldl] at h
  simpa [Nat.mul_comm] using h

/-- Only the number zero is written with a zero in front. -/
theorem toDigits_eq_cons {n : Nat} (hn : 0 < n) :
    ∃ c cs, Nat.toDigits 10 n = c :: cs ∧ c ≠ '0' := by
  induction n using Nat.strongRecOn with
  | _ n ih =>
    rcases Nat.lt_or_ge n 10 with hlt | hge
    · refine ⟨n.digitChar, [], Nat.toDigits_of_lt_base hlt, ?_⟩
      rw [Ne, Nat.digitChar_eq_zero]
      omega
    · obtain ⟨c, cs, hcs, hc⟩ := ih (n / 10) (by omega) (by omega)
      refine ⟨c, cs ++ [(n % 10).digitChar], ?_, hc⟩
      rw [Nat.toDigits_of_base_le (by decide) hge, hcs, List.cons_append]

end Text

end Gatehouse
