import Mathlib.Data.List.Forall2
import Gatehouse.Proofs.Bytes
import Gatehouse.Proofs.Host.Token
import Gatehouse.Proofs.Text.Ascii

/-!
# The language of plain host patterns

`Describes` says which hosts a plain pattern stands for, from left to right: two stars for one or
more characters, a star for one or more that are no dots, and every other character for itself in
either case. A pattern accepts just these hosts, with or without a port behind them.
-/

namespace Gatehouse.Host

open Regex
open Unicode (CharSet closure)

variable {room : Capacity} {text : String} {p : Pattern} {t : Token} {ts : List Token} {pre part post : List Char}

/-- The parts of a host that a token stands for. -/
def Token.Takes : Token → List Char → Prop
  | .any, part => part ≠ []
  | .label, part => part ≠ [] ∧ '.' ∉ part
  | .char c, part => ∃ d, part = [d] ∧ d.toLower = c.toLower

/-- The hosts that a plain pattern stands for: cut up into parts, one for each token in order. -/
def Describes (pattern host : List Char) : Prop :=
  ∃ parts, host = parts.flatten ∧ List.Forall₂ Token.Takes (tokens pattern) parts

/-! ## What tokens describe -/

theorem times_letter_iff {set : CharSet} {n : Nat} :
    Times (Expr.one set).Spans n pre part post ↔
      part.length = n ∧ ∀ d ∈ part, set.contains d = true := by
  induction n generalizing pre part with
  | zero =>
    constructor
    · rintro rfl
      simp
    · exact fun h => List.length_eq_zero_iff.mp h.1
  | succ n ih =>
    constructor
    · rintro ⟨_, back, rfl, ⟨d, rfl, hd⟩, hback⟩
      obtain ⟨rfl, hall⟩ := ih.mp hback
      exact ⟨rfl, List.forall_mem_cons.mpr ⟨hd, hall⟩⟩
    · rintro ⟨hlength, hall⟩
      obtain ⟨d, back, rfl⟩ := List.exists_cons_of_length_eq_add_one hlength
      rw [List.forall_mem_cons] at hall
      exact ⟨[d], back, rfl, ⟨d, rfl, hall.1⟩, ih.mpr ⟨Nat.succ_inj.mp hlength, hall.2⟩⟩

theorem spans_plus_iff {set : CharSet} {greedy : Bool} :
    (Expr.repetition 1 none greedy (.one set)).Spans pre part post ↔
      part ≠ [] ∧ ∀ d ∈ part, set.contains d = true := by
  rw [← List.length_pos_iff]
  constructor
  · rintro ⟨n, ⟨hlow, -⟩, htimes⟩
    obtain ⟨rfl, hall⟩ := times_letter_iff.mp htimes
    exact ⟨hlow, hall⟩
  · rintro ⟨hlow, hall⟩
    exact ⟨part.length, ⟨hlow, by simp⟩, times_letter_iff.mpr ⟨rfl, hall⟩⟩

/-- A token describes the parts that it stands for. -/
theorem spans_token_iff (ht : t.Plain) (hpart : ∀ d ∈ part, d.toNat < 128 ∧ d ≠ '\n') :
    t.expr.Spans pre part post ↔ t.Takes part := by
  cases t with
  | any =>
    refine spans_plus_iff.trans (and_iff_left fun d hd => ?_)
    exact CharSet.contains_complement_single.mpr (hpart d hd).2
  | label =>
    refine spans_plus_iff.trans (and_congr_right' ?_)
    simp only [CharSet.contains_complement_single]
    exact ⟨fun hall hdot => hall _ hdot rfl, fun hdot d hd heq => hdot (heq ▸ hd)⟩
  | char c =>
    refine exists_congr fun d => and_congr_right fun heq => ?_
    have hd : d.toNat < 128 := (hpart d (heq ▸ List.mem_singleton_self d)).1
    exact Unicode.contains_closure_single (toNat_lt_of_isPlain ht.1) hd

/-- Tokens in a row describe what is cut up into parts that they stand for. -/
theorem row_tokens_iff (hts : ∀ t ∈ ts, t.Plain) (hpart : ∀ d ∈ part, d.toNat < 128 ∧ d ≠ '\n') :
    Row (ts.map Token.piece).reverse pre part post ↔
      ∃ parts, part = parts.flatten ∧ List.Forall₂ Token.Takes ts parts := by
  induction ts generalizing pre part with
  | nil => simp [Row, List.forall₂_nil_left_iff]
  | cons t ts ih =>
    rw [List.forall_mem_cons] at hts
    rw [List.map_cons, List.reverse_cons, row_append]
    constructor
    · rintro ⟨first, rest, rfl, hfirst, hrest⟩
      rw [List.forall_mem_append] at hpart
      replace hfirst : t.piece.expr.Spans pre first (rest ++ post) := nothing_then.mp hfirst
      rw [t.expr_piece, spans_token_iff hts.1 hpart.1] at hfirst
      obtain ⟨parts, rfl, hparts⟩ := (ih hts.2 hpart.2).mp hrest
      exact ⟨first :: parts, rfl, .cons hfirst hparts⟩
    · rintro ⟨_, rfl, hparts⟩
      obtain ⟨first, parts, hfirst, hrest, rfl⟩ := List.forall₂_cons_left_iff.mp hparts
      rw [List.flatten_cons, List.forall_mem_append] at hpart
      refine ⟨first, parts.flatten, rfl, nothing_then.mpr ?_,
        (ih hts.2 hpart.2).mpr ⟨parts, rfl, hrest⟩⟩
      rw [t.expr_piece, spans_token_iff hts.1 hpart.1]
      exact hfirst

/-! ## Hosts -/

variable {host port : Bytes}

/-- What has no bracket in front is taken apart at the last colon. -/
theorem stripPort_eq (h : host.head? ≠ some 0x5B) : stripPort host =
    match Bytes.splitOnce 0x3A host.reverse with
    | some (port, name) =>
      if !port.isEmpty && port.all Bytes.isDigit then name.reverse else host
    | none => host := by
  cases host with
  | nil => rfl
  | cons b rest =>
    have hb : b ≠ 0x5B := fun heq => h (congrArg some heq)
    unfold stripPort
    split
    · next heq => exact absurd (List.cons_eq_cons.mp heq).1 hb
    · rfl

theorem stripPort_of_not_mem (hbracket : host.head? ≠ some 0x5B) (hcolon : 0x3A ∉ host) :
    stripPort host = host := by
  rw [stripPort_eq hbracket, Bytes.splitOnce_of_not_mem (by simpa using hcolon)]

theorem stripPort_port (hbracket : host.head? ≠ some 0x5B) (hne : port ≠ [])
    (hport : port.all Bytes.isDigit = true) :
    stripPort (host ++ 0x3A :: port) = host := by
  have hcolon : 0x3A ∉ port.reverse := fun hmem =>
    absurd (List.all_eq_true.mp hport _ (List.mem_reverse.mp hmem)) (by decide)
  have hhead : (host ++ 0x3A :: port).head? ≠ some 0x5B := by
    cases host with
    | nil => simp
    | cons b host => exact hbracket
  have hreverse : (host ++ 0x3A :: port).reverse = port.reverse ++ 0x3A :: host.reverse := by simp
  rw [stripPort_eq hhead, hreverse, Bytes.splitOnce_append hcolon]
  simp [hne, hport]

/-- A host of ASCII characters that has no line break, and nothing of a port or an IPv6 address. -/
def IsName (host : String) : Prop :=
  ∀ c ∈ host.toList, c.toNat < 128 ∧ c ≠ '\n' ∧ c ≠ '[' ∧ c ≠ ':'

namespace IsName

variable {host port : String} (hhost : IsName host)

include hhost

theorem ascii : ∀ c ∈ host.toList, c.toNat < 128 := fun c hc => (hhost c hc).1

theorem head_ne : (Bytes.ofString host).head? ≠ some 0x5B := fun hhead =>
  Bytes.ofChar_not_mem_ofString hhost.ascii (by decide : '['.toNat < 128)
    (fun hmem => (hhost _ hmem).2.2.1 rfl) (List.mem_of_head? hhead)

/-- The text of a host is matched. -/
theorem hostText_eq : hostText (Bytes.ofString host) = host.toList := by
  have hcolon : 0x3A ∉ Bytes.ofString host :=
    Bytes.ofChar_not_mem_ofString hhost.ascii (by decide : ':'.toNat < 128)
      fun hmem => (hhost _ hmem).2.2.2 rfl
  rw [hostText, stripPort_of_not_mem hhost.head_ne hcolon, Utf8.toList_decodeLossy hhost.ascii]

/-- The text of a host is matched without its port. -/
theorem hostText_port (hne : port ≠ "") (hport : ∀ c ∈ port.toList, c.isDigit = true) :
    hostText (Bytes.ofString (host ++ ":" ++ port)) = host.toList := by
  have hsplit : Bytes.ofString (host ++ ":" ++ port) =
      Bytes.ofString host ++ 0x3A :: Bytes.ofString port := by
    have hsign : Bytes.ofString ":" = [0x3A] := by decide
    rw [Bytes.ofString_append, Bytes.ofString_append, hsign, List.append_assoc,
      List.singleton_append]
  have hdigits : Bytes.ofString port ≠ [] := by
    rw [Bytes.ofString_ascii (Bytes.lt_of_digits hport)]
    simpa using hne
  rw [hostText, hsplit, stripPort_port hhost.head_ne hdigits (Bytes.all_isDigit_ofString hport),
    Utf8.toList_decodeLossy hhost.ascii]

end IsName

/-! ## The language of a pattern -/

theorem accepts_iff_describes (hplain : ∀ c ∈ text.toList, isPlain c = true)
    (hp : Pattern.ofText room text = .ok p) {bs : Bytes}
    (hbs : ∀ d ∈ hostText bs, d.toNat < 128 ∧ d ≠ '\n') :
    p.accepts bs = true ↔ Describes text.toList (hostText bs) := by
  have hread : (read text.toList).pieces.filterMap id =
      ((tokens text.toList).map Token.piece).reverse := by
    simp [read]
  rw [accepts_iff_spans hp (unit_expression hplain) rfl rfl rfl]
  refine (spans_concat _).trans ?_
  rw [hread]
  exact row_tokens_iff (plain_tokens hplain) hbs

/-- **What a plain pattern accepts.** A plain pattern is compiled if there is room for its expression,
and otherwise is refused as too large. It accepts the hosts that it stands for, and it does not matter
whether a port stands behind them. -/
theorem plain_pattern_language (room : Capacity) (hplain : ∀ c ∈ text.toList, isPlain c = true) :
    (room (anchored text.toList) = true → ∃ p, Pattern.ofText room text = .ok p) ∧
    (room (anchored text.toList) = false → Pattern.ofText room text = .error .tooLarge) ∧
    ∀ p, Pattern.ofText room text = .ok p → ∀ host port : String, IsName host → port ≠ "" →
      (∀ c ∈ port.toList, c.isDigit = true) →
        p.accepts (Bytes.ofString (host ++ ":" ++ port)) = p.accepts (Bytes.ofString host) ∧
        (p.accepts (Bytes.ofString host) = true ↔ Describes text.toList host.toList) := by
  have hcompiled := ofText_plain room hplain
  refine ⟨fun hroom => ?_, fun hroom => ?_, fun p hp host port hhost hne hport => ?_⟩
  · exact ⟨_, hcompiled.trans (if_pos hroom)⟩
  · exact hcompiled.trans (if_neg (Bool.eq_false_iff.mp hroom))
  · have htext := hhost.hostText_eq
    have hported := hhost.hostText_port hne hport
    have hascii : ∀ d ∈ host.toList, d.toNat < 128 ∧ d ≠ '\n' := fun d hd =>
      ⟨(hhost d hd).1, (hhost d hd).2.1⟩
    have hname := accepts_iff_describes hplain hp (htext ▸ hascii)
    have hwith := accepts_iff_describes hplain hp (hported ▸ hascii)
    rw [htext] at hname
    rw [hported] at hwith
    exact ⟨Bool.eq_iff_iff.mpr (hwith.trans hname.symm), hname⟩

/-- There is room for a short pattern. -/
theorem plain_pattern_language_subdomain :
    ∃ p, Pattern.ofText (fun _ => true) "*.example.com" = .ok p ∧
      p.accepts (Bytes.ofString ("API.Example.com" ++ ":" ++ "8443")) =
        p.accepts (Bytes.ofString "API.Example.com") ∧
      (p.accepts (Bytes.ofString "API.Example.com") = true ↔
        Describes "*.example.com".toList "API.Example.com".toList) := by
  have hplain : ∀ c ∈ "*.example.com".toList, isPlain c = true := List.all_eq_true.mp (by decide)
  have hhost : IsName "API.Example.com" := by simp [IsName]
  have hport : ∀ c ∈ "8443".toList, c.isDigit = true := List.all_eq_true.mp (by decide)
  obtain ⟨hcompiles, -, haccepts⟩ := plain_pattern_language (fun _ => true) hplain
  obtain ⟨p, hp⟩ := hcompiles rfl
  exact ⟨p, hp, haccepts p hp "API.Example.com" "8443" hhost (by decide) hport⟩

/-! ## A pattern that is too large -/

theorem tokens_stars (n : Nat) : tokens (List.replicate (2 * n) '*') = List.replicate n .any := by
  induction n with
  | zero => rfl
  | succ n ih => rw [Nat.mul_succ, List.replicate_succ, List.replicate_succ, tokens, ih]; rfl

theorem size_foldl_seq (pieces : List Piece) (e : Expr) :
    (pieces.foldl (fun e p => .seq p.expr e) e).size =
      e.size + (pieces.map fun p => p.expr.size).sum := by
  induction pieces generalizing e with
  | nil => rfl
  | cons p pieces ih =>
    rw [List.foldl_cons, ih, Expr.size, List.map_cons, List.sum_cons]
    omega

/-- Between the two anchors each pair of stars takes its share. -/
theorem size_anchored_stars (n : Nat) :
    (anchored (List.replicate (2 * n) '*')).size = n * 482 + 64 := by
  have hread : (readAnchored (List.replicate (2 * n) '*')).pieces.filterMap id =
      ⟨.look .textEnd, 0⟩ :: (List.replicate n Token.any.piece ++ [⟨.look .textStart, 0⟩]) := by
    simp [readAnchored, GroupState.ended, read, startPieces, dollar, hostFlags, tokens_stars]
  have hany : Token.any.piece.expr.size = 482 := rfl
  change (concat (readAnchored _).pieces).expr.size = _
  rw [concat, hread]
  cases n with
  | zero => rfl
  | succ n =>
    rw [List.replicate_succ, List.cons_append]
    dsimp only
    rw [size_foldl_seq]
    simp [hany, Expr.size]
    omega

/-- A hundred thousand stars make a plain pattern that is too large to be compiled. -/
theorem stars_refused :
    (∀ c ∈ (String.ofList (List.replicate 100000 '*')).toList, isPlain c = true) ∧
      Pattern.ofText .estimated (String.ofList (List.replicate 100000 '*')) = .error .tooLarge := by
  have hplain : ∀ c ∈ (String.ofList (List.replicate 100000 '*')).toList, isPlain c = true := by
    intro c hc
    rw [String.toList_ofList, List.mem_replicate] at hc
    rw [hc.2]
    rfl
  refine ⟨hplain, (ofText_plain .estimated hplain).trans (if_neg ?_)⟩
  rw [String.toList_ofList, Capacity.estimated, size_anchored_stars 50000]
  decide

end Gatehouse.Host
