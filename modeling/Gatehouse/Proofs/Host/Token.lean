import Mathlib.Algebra.GroupWithZero.Nat
import Gatehouse.Proofs.Host.Anchoring
import Gatehouse.Proofs.Regex.Literal
import Gatehouse.Proofs.Unicode.Folding

/-!
# Plain host patterns

A plain pattern has letters, digits, hyphens, underscores, dots and stars only. Read from left to
right it is a row of tokens, and each token becomes one piece of the regular expression
(`run_groupParts_tokens`). So a plain pattern is always well-formed, and whether it is compiled is a
matter of the room for its expression only (`ofText_plain`).
-/

namespace Gatehouse.Host

open Regex Reader
open Unicode (CharSet closure)

/-- A character of a plain pattern. -/
def isPlain (c : Char) : Bool := c.isAlphanum || c == '-' || c == '_' || c == '.' || c == '*'

/-- What a pattern says at one place. -/
inductive Token
  /-- `**` -/
  | any
  /-- `*` -/
  | label
  | char (c : Char)

/-- What a pattern says from left to right. -/
def tokens : List Char → List Token
  | [] => []
  | '*' :: '*' :: rest => .any :: tokens rest
  | '*' :: rest => .label :: tokens rest
  | c :: rest => .char c :: tokens rest

namespace Token

/-- A token as it is written in a regular expression. -/
def spelling : Token → List Char
  | .any => ['.', '+']
  | .label => ['[', '^', '.', ']', '+']
  | .char c => if c = '.' then ['\\', '.'] else [c]

/-- The expression of a token, where case does not count. -/
def expr : Token → Expr
  | .any => .repetition 1 none true (.one (CharSet.complement (.single '\n')))
  | .label => .repetition 1 none true (.one (CharSet.complement (.single '.')))
  | .char c => .one (closure (.single c))

/-- The piece that a token becomes, with how deep it nests. -/
def piece (t : Token) : Piece :=
  match t with
  | .any => ⟨t.expr, 1⟩
  | .label => ⟨t.expr, 2⟩
  | .char _ => ⟨t.expr, 0⟩

/-- The parts of a group that a token is read as. -/
def parts : Token → Nat
  | .any => 2
  | .label => 2
  | .char _ => 1

/-- A token of a plain pattern. -/
def Plain : Token → Prop
  | .any => True
  | .label => True
  | .char c => isPlain c = true ∧ c ≠ '*'

end Token

variable {c : Char} {cs : List Char} {t : Token} {ts : List Token} {text : String}

theorem expression_eq (cs : List Char) : expression cs = (tokens cs).flatMap Token.spelling := by
  fun_induction expression cs with
  | case1 => rfl
  | case2 rest ih => simp [tokens, Token.spelling, ih]
  | case3 rest hrest ih => simp [tokens, Token.spelling, ih]
  | case4 rest ih => simp [tokens, Token.spelling, ih]
  | case5 c rest _ _ hdot ih =>
    rw [tokens, List.flatMap_cons, Token.spelling, if_neg hdot, ih]
    · rfl
    all_goals assumption

theorem plain_tokens (h : ∀ c ∈ cs, isPlain c = true) : ∀ t ∈ tokens cs, t.Plain := by
  fun_induction tokens cs with
  | case1 => simp
  | case2 rest ih =>
    exact List.forall_mem_cons.mpr ⟨trivial, ih fun c hc => h c (by simp [hc])⟩
  | case3 rest _ ih =>
    exact List.forall_mem_cons.mpr ⟨trivial, ih fun c hc => h c (by simp [hc])⟩
  | case4 c rest _ hstar ih =>
    exact List.forall_mem_cons.mpr ⟨⟨h c (by simp), hstar⟩, ih fun c hc => h c (by simp [hc])⟩

theorem toNat_lt_of_isPlain {c : Char} (hc : isPlain c = true) : c.toNat < 128 := by
  have halnum : c.isAlphanum = (decide (c.val ≥ 'A'.val ∧ c.val ≤ 'Z'.val) ||
      (decide (c.val ≥ 'a'.val) && decide (c.val ≤ 'z'.val)) ||
        (decide (c.val ≥ '0'.val) && decide (c.val ≤ '9'.val))) := rfl
  have hlt {last : Char} (h : c.val ≤ last.val) (hlast : last.toNat < 128) : c.toNat < 128 :=
    Nat.lt_of_le_of_lt h hlast
  simp only [isPlain, halnum, Bool.or_eq_true, Bool.and_eq_true, decide_eq_true_eq,
    beq_iff_eq] at hc
  rcases hc with (((((h | h) | h) | rfl) | rfl) | rfl) | rfl
  · exact hlt h.2 (by decide)
  · exact hlt h.2 (by decide)
  · exact hlt h.2 (by decide)
  all_goals decide

theorem not_mem_specials (hc : isPlain c = true) (hdot : c ≠ '.') (hstar : c ≠ '*') :
    c ∉ specials := by
  have hspecials : specials.all (fun x => !isPlain x || x == '.' || x == '*') = true := by decide
  intro hmem
  have hc' := List.all_eq_true.mp hspecials c hmem
  simp [hc, hdot, hstar] at hc'

/-! ## Reading tokens -/

/-- The flags of a host pattern. -/
def hostFlags : Flags := { ignoreCase := true }

section

variable {n : Nat} {inside : Flags → Reader Piece} {s : GroupState} {groups : Nat}
  {names : List (String × Nat)}

theorem run_groupPart_dot : (groupPart inside hostFlags '.').run ⟨'.' :: cs, groups, names⟩ =
    some ((hostFlags, .piece (.one (CharSet.complement (.single '\n'))) 0), ⟨cs, groups, names⟩) :=
  rfl

theorem run_groupPart_escaped_dot :
    (groupPart inside hostFlags '\\').run ⟨'\\' :: '.' :: cs, groups, names⟩ =
      some ((hostFlags, .piece (.one (closure (.single '.'))) 0), ⟨cs, groups, names⟩) :=
  rfl

theorem run_groupPart_label :
    (groupPart inside hostFlags '[').run ⟨'[' :: '^' :: '.' :: ']' :: cs, groups, names⟩ =
      some ((hostFlags, .piece (.one (CharSet.complement (.single '.'))) 1),
        ⟨cs, groups, names⟩) := by
  have hdot : CharSet.ofList ((closure (.single '.')).ranges ++ []) = .single '.' := by
    rw [Unicode.closure_single_of_not_letter (by decide) (by decide) (by decide)]
    exact CharSet.ofList_singleton
  rw [← hdot]
  rfl

/-- A token is read as its piece. -/
theorem run_groupParts_token (ht : t.Plain) (hcs : cs.head? ≠ some '?') :
    (groupParts (n + t.parts) hostFlags s).run ⟨t.spelling ++ cs, groups, names⟩ =
      (groupParts n hostFlags { s with pieces := some t.piece :: s.pieces }).run
        ⟨cs, groups, names⟩ := by
  have hunblanked (cs : List Char) : unblanked hostFlags cs = cs := unblanked_of_not_verbose rfl cs
  cases t with
  | any =>
    exact (run_groupParts_of_part (hunblanked _) (by decide) run_groupPart_dot rfl).trans
      (run_groupParts_of_part (hunblanked _) (by decide) (run_groupPart_plus hcs _) rfl)
  | label =>
    exact (run_groupParts_of_part (hunblanked _) (by decide) run_groupPart_label rfl).trans
      (run_groupParts_of_part (hunblanked _) (by decide) (run_groupPart_plus hcs _) rfl)
  | char c =>
    obtain ⟨hc, hstar⟩ := ht
    by_cases hdot : c = '.'
    · subst hdot
      exact run_groupParts_of_part (hunblanked _) (by decide) run_groupPart_escaped_dot rfl
    · have hspecial : c ∉ specials := not_mem_specials hc hdot hstar
      have hparen : c ≠ ')' := fun h => hspecial (h ▸ by decide)
      rw [Token.spelling, if_neg hdot]
      exact run_groupParts_of_part (hunblanked _) hparen (run_groupPart_literal hspecial _) rfl

/-- No token begins with a question mark, which would belong to the plus sign before it. -/
theorem head_spelling_ne (hts : ∀ t ∈ ts, t.Plain) (hcs : cs.head? ≠ some '?') :
    (ts.flatMap Token.spelling ++ cs).head? ≠ some '?' := by
  cases ts with
  | nil => exact hcs
  | cons t ts =>
    cases t with
    | any => simp [Token.spelling]
    | label => simp [Token.spelling]
    | char c =>
      rw [List.flatMap_cons, Token.spelling]
      split
      · simp
      · rintro ⟨⟩
        exact absurd (hts _ List.mem_cons_self).1 (by decide)

/-- The tokens of a plain pattern are read as their pieces, the last one first. -/
theorem run_groupParts_tokens (hts : ∀ t ∈ ts, t.Plain) (hcs : cs.head? ≠ some '?') :
    (groupParts (n + (ts.map Token.parts).sum) hostFlags s).run
        ⟨ts.flatMap Token.spelling ++ cs, groups, names⟩ =
      (groupParts n hostFlags
        { s with pieces := (ts.map fun t => some t.piece).reverse ++ s.pieces }).run
          ⟨cs, groups, names⟩ := by
  -- the pieces of the tokens read so far are in the state, so it changes from token to token
  induction ts generalizing s with
  | nil => rfl
  | cons t ts ih =>
    rw [List.forall_mem_cons] at hts
    have hfuel : n + ((t :: ts).map Token.parts).sum = n + (ts.map Token.parts).sum + t.parts := by
      rw [List.map_cons, List.sum_cons, Nat.add_assoc, Nat.add_comm t.parts]
    rw [hfuel, List.flatMap_cons, List.append_assoc,
      run_groupParts_token hts.1 (head_spelling_ne hts.2 hcs), ih hts.2]
    simp

theorem sum_parts_le (ts : List Token) :
    (ts.map Token.parts).sum ≤ (ts.flatMap Token.spelling).length := by
  induction ts with
  | nil => exact Nat.le_refl 0
  | cons t ts ih =>
    have hparts : t.parts ≤ t.spelling.length := by
      cases t with
      | any => decide
      | label => decide
      | char c =>
        rw [Token.spelling]
        split <;> simp [Token.parts]
    rw [List.map_cons, List.sum_cons, List.flatMap_cons, List.length_append]
    exact Nat.add_le_add hparts ih

end

/-- What is read of a plain pattern. -/
def read (cs : List Char) : GroupState := ⟨[], ((tokens cs).map fun t => some t.piece).reverse⟩

/-- A plain pattern is one unit with one branch. -/
theorem unit_expression (h : ∀ c ∈ cs, isPlain c = true) :
    unit? (expression cs) = some (hostFlags, read cs) := by
  have hle := sum_parts_le (tokens cs)
  have hfuel : 2 * (expression cs).length + 2 =
      2 * (expression cs).length + 1 - ((tokens cs).map Token.parts).sum + 1 +
        ((tokens cs).map Token.parts).sum := by
    rw [expression_eq]
    omega
  have hrun : (groupParts (2 * (expression cs).length + 2) hostFlags {}).run
      { rest := expression cs } = some ((hostFlags, read cs), { rest := [] }) := by
    rw [hfuel, expression_eq, ← List.append_nil ((tokens cs).flatMap Token.spelling),
      run_groupParts_tokens (plain_tokens h) (by simp),
      run_groupParts_stop (by simp [unblanked_nil])]
    simp [read, unblanked_nil]
  rw [unit?]
  change ((groupParts _ hostFlags {}).run _).bind _ = _
  rw [hrun]
  rfl

/-! ## Compiling plain patterns -/

/-- What is read of a plain pattern between the anchors. -/
def readAnchored (cs : List Char) : GroupState :=
  GroupState.ended ⟨[], (read cs).pieces ++ startPieces⟩ hostFlags

theorem run_groupParts_pattern (h : ∀ c ∈ cs, isPlain c = true) :
    (groupParts (2 * ("(?i)^".toList ++ (expression cs ++ ['$'])).length + 2) {} {}).run
        { rest := "(?i)^".toList ++ (expression cs ++ ['$']) } =
      some ((hostFlags, readAnchored cs), { rest := [] }) := by
  have hle := sum_parts_le (tokens cs)
  rw [← expression_eq] at hle
  have hfuel : 2 * ("(?i)^".toList ++ (expression cs ++ ['$'])).length + 2 =
      2 * (expression cs).length + 10 - ((tokens cs).map Token.parts).sum + 2 +
        ((tokens cs).map Token.parts).sum + 2 := by
    simp
    omega
  rw [hfuel, run_groupParts_prefix]
  -- the first occurrence counts the fuel, the second is what is read
  nth_rewrite 2 [expression_eq]
  exact (run_groupParts_tokens (plain_tokens h) (by decide)).trans (run_groupParts_at_dollar rfl)

theorem Token.expr_piece (t : Token) : t.piece.expr = t.expr := by cases t <;> rfl

theorem Token.depth_piece_le (t : Token) : t.piece.depth ≤ 2 := by
  cases t with
  | any => exact Nat.le_succ 1
  | label => exact Nat.le_refl 2
  | char c => exact Nat.zero_le 2

theorem depth_readAnchored_le (cs : List Char) : (readAnchored cs).result.depth ≤ nestLimit := by
  have hle : (concat (readAnchored cs).pieces).depth ≤ 2 + 1 := by
    refine depth_concat_le fun p hp => ?_
    rcases List.mem_cons.mp hp with heq | hp
    · cases heq
      exact Nat.zero_le 2
    rcases List.mem_append.mp hp with hp | hp
    · obtain ⟨t, -, heq⟩ := List.mem_map.mp (List.mem_reverse.mp hp)
      cases heq
      exact t.depth_piece_le
    · simp [startPieces] at hp
      simp [hp]
  exact Nat.le_trans hle (by decide)

/-- The expression of a plain pattern with its anchors. -/
def anchored (cs : List Char) : Expr := (readAnchored cs).result.expr

/-- A plain pattern is compiled if there is room for its expression, and is too large if not. -/
theorem ofText_plain (room : Capacity) (h : ∀ c ∈ text.toList, isPlain c = true) :
    Pattern.ofText room text =
      if room (anchored text.toList) then
        .ok ⟨text, { node := (anchored text.toList).toNode, names := [] }⟩
      else .error .tooLarge := by
  have hparse : parse? (s!"(?i)^{String.ofList (expression text.toList)}$").toList =
      some (anchored text.toList, []) := by
    rw [toList_anchored]
    exact parse_eq_some.mpr
      ⟨_, _, _, run_groupParts_pattern h, rfl, depth_readAnchored_le _, rfl, rfl⟩
  rw [Pattern.ofText, Regex.ofText, hparse]
  cases hroom : room (anchored text.toList) with
  | true => simp [hroom]
  | false => simp [hroom]

end Gatehouse.Host
