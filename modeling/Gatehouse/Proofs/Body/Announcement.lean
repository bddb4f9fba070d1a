import Gatehouse.Proofs.Body.Loss

/-!
# The size that a body announces

A body that is handed on may announce how many bytes it has. What it has is what is left of the body
that it comes from, and what it announces is the declared length, unless the bytes are kept or the
source is gone. So the two agree except for a body that has only been read, of which some bytes are
gone and the end has not been seen: it announces these bytes once more.
-/

namespace Gatehouse.Body

/-- A body whose bytes are not kept, whatever its source does. Without its source it has nothing
more, and closing takes it. -/
structure Loose (b : Body) : Prop where
  captured : b.captured = none
  pending : b.source = none → b.pending = []
  closed : b.closed = true → b.source = none

/-- What a reading that is answered does to a loose body: it gives out the front of what is left, and
the source is let go of where a cycle ends and nowhere else. -/
structure Draws (b : Body) (a : Answer) (after : Body) : Prop where
  loose : after.Loose
  length : after.length = b.length
  bytes : a.bytes ++ after.left = b.left
  ended : a.ends = true → after.source = none
  going : a.ends = false → b.source ≠ none → after.source ≠ none

/-- Whoever has an answer to some readings has the front of some bytes, and of an end hears behind the
last of them only. -/
def Delivers (b : Body) (content : Bytes) : Prop :=
  ∀ asks answers after, (∀ ask ∈ asks, ask.2.IsReading) → b.answers? asks = some (answers, after) →
    delivered answers <+: content ∧
    ∀ before a later, answers = before ++ a :: later → a.ends = true →
      delivered (before ++ [a]) = content

/-- Whether a body has only been read, and no reading has come to an end. -/
structure OnlyRead (asks : List (Instant × Ask)) (answers : List Answer) : Prop where
  reading : ∀ ask ∈ asks, ask.2.IsReading
  going : ∀ a ∈ answers, a.ends = false

variable {b after : Body} {now finish : Instant} {limit : Option Instant} {size n : Nat} {ask : Ask}
  {asks : List (Instant × Ask)} {a : Answer} {answers : List Answer} {kept content : Bytes}

/-! ## Reading a loose body -/

theorem loose_ofSource (source : Source) (length : Option Nat) : (ofSource source length).Loose where
  captured := rfl
  pending hnone := nomatch hnone
  closed hclosed := nomatch hclosed

theorem Spent.loose (h : Spent b) : b.Loose := ⟨h.captured, fun _ => h.pending, fun _ => h.source⟩

theorem Loose.spent (h : b.Loose) (hsource : b.source = none) : b.Spent :=
  ⟨h.captured, hsource, h.pending hsource⟩

/-- Reading on takes the bytes that wait, or else what the source brings, and the source goes with its
end. -/
theorem Loose.of_next (h : b.Loose) {result : Option (Except String Bytes)}
    (hnext : b.next now limit = (.done finish result, after)) :
    after.Loose ∧ after.length = b.length ∧ after.pending = [] ∧
      (result = none → after.source = none) ∧ (result ≠ none → after.source ≠ none) := by
  simp only [Body.next, h.captured] at hnext
  split at hnext
  · next hpending =>
    cases hnext
    have hsource : b.source ≠ none := fun hnone => by simp [h.pending hnone] at hpending
    exact ⟨⟨rfl, fun _ => rfl, h.closed⟩, rfl, rfl, by rintro ⟨⟩, fun _ => hsource⟩
  · next hpending =>
    have hempty : b.pending = [] := by simpa using hpending
    split at hnext
    · next hsource =>
      cases hnext
      exact ⟨h, rfl, hempty, fun _ => hsource, fun hne => absurd rfl hne⟩
    · next source hsource =>
      split at hnext
      · cases hnext
      · cases hnext
        exact ⟨⟨rfl, fun _ => hempty, fun _ => rfl⟩, rfl, hempty, fun _ => rfl,
          fun hne => absurd rfl hne⟩
      · cases hnext
        have hopen : b.closed ≠ true := fun hclosed => by simp [h.closed hclosed] at hsource
        exact ⟨⟨rfl, by rintro ⟨⟩, fun hclosed => absurd hclosed hopen⟩, rfl, hempty, by rintro ⟨⟩,
          fun _ => Option.some_ne_none _⟩

theorem Loose.draws_next (h : b.Loose) (hask : b.answer? now .next = some (a, after)) :
    Draws b a after := by
  rw [answer?] at hask
  split at hask
  · next bytes mid hnext =>
    cases hask
    obtain ⟨hloose, hlength, -, -, hsource⟩ := h.of_next hnext
    exact ⟨hloose, hlength, (brings_of_next h.captured hnext).1.2, by rintro ⟨⟩,
      fun _ _ => hsource (Option.some_ne_none _)⟩
  · next mid hnext =>
    cases hask
    obtain ⟨hloose, hlength, -, hsource, -⟩ := h.of_next hnext
    refine ⟨hloose, hlength, ?_, fun _ => hsource rfl, by rintro ⟨⟩⟩
    have hend : b.left = [] := (brings_of_next h.captured hnext).1
    rw [hend, (hloose.spent (hsource rfl)).left_eq_nil]
    rfl
  · cases hask

theorem Loose.draws_read (h : b.Loose) (hask : b.answer? now (.read size) = some (a, after)) :
    Draws b a after := by
  by_cases hsize : size = 0
  · subst hsize
    cases hask
    exact ⟨h, rfl, rfl, by rintro ⟨⟩, fun _ hsource => hsource⟩
  · simp only [answer?, Body.read, if_neg hsize, h.captured] at hask
    rcases hnext : b.next now none with ⟨ended, mid⟩
    rw [hnext] at hask
    cases ended with
    | givenUp => cases hask
    | done finish result =>
      cases result with
      | none =>
        cases hask
        obtain ⟨hloose, hlength, -, hsource, -⟩ := h.of_next hnext
        have hend : b.left = [] := (brings_of_next h.captured hnext).1
        refine ⟨hloose, hlength, ?_, fun _ => hsource rfl, fun hends => ?_⟩
        · rw [hend, (hloose.spent (hsource rfl)).left_eq_nil]
          rfl
        · simp [hsize] at hends
      | some piece =>
        cases piece with
        | error reason => cases hask
        | ok bytes =>
          cases hask
          obtain ⟨hloose, hlength, hpending, -, hopen⟩ := h.of_next hnext
          obtain ⟨hne, hleft⟩ := (brings_of_next h.captured hnext).1
          have hsource := hopen (Option.some_ne_none _)
          -- what is not taken of the bytes waits in front of the source
          refine ⟨⟨hloose.captured, fun hnone => absurd hnone hsource, hloose.closed⟩, hlength, ?_,
            fun hends => ?_, fun _ _ => hsource⟩
          · rw [← hleft]
            simp only [left, hpending, List.nil_append]
            rw [← List.append_assoc, List.take_append_drop]
          · simp [hsize, hne] at hends

theorem Loose.draws_readAll (h : b.Loose) (hask : b.answer? now .readAll = some (a, after)) :
    Draws b a after := by
  rw [answer?] at hask
  split at hask
  · next finish bytes mid hread =>
    cases hask
    have hbytes : bytes = b.left := by
      rw [eq_content_of_readAll h.captured hread, content_of_not_captured h.captured]
    have hafter : after.Spent ∧ after.length = b.length := by
      simp only [Body.readAll, h.captured] at hread
      split at hread
      · next hsource =>
        cases hread
        exact ⟨⟨rfl, hsource, rfl⟩, rfl⟩
      · split at hread
        · cases hread
        · cases hread
          exact ⟨⟨rfl, rfl, rfl⟩, rfl⟩
        · cases hread
    refine ⟨hafter.1.loose, hafter.2, ?_, fun _ => hafter.1.source, by rintro ⟨⟩⟩
    rw [hbytes, hafter.1.left_eq_nil, List.append_nil]
  · cases hask

theorem Loose.draws (h : b.Loose) (hreading : ask.IsReading)
    (hask : b.answer? now ask = some (a, after)) : Draws b a after := by
  cases ask with
  | read size => exact h.draws_read hask
  | readAll => exact h.draws_readAll hask
  | next => exact h.draws_next hask
  | capture => exact hreading.elim
  | close => exact hreading.elim
  | forward => exact hreading.elim

/-- What a loose body has left is what it delivers. -/
theorem Loose.delivers (h : b.Loose) : b.Delivers b.left := by
  intro asks
  induction asks generalizing b with
  | nil =>
    intro answers after _ hrun
    cases hrun
    exact ⟨List.nil_prefix, fun before a later heq => by simp at heq⟩
  | cons ask asks ih =>
    intro answers after hreading hrun
    obtain ⟨a, mid, rest, hask, hrest, rfl⟩ := exists_of_answers?_cons hrun
    have hdraws := h.draws (hreading ask List.mem_cons_self) hask
    obtain ⟨hfront, hends⟩ := ih hdraws.loose rest after
      (fun later hlater => hreading later (List.mem_cons_of_mem _ hlater)) hrest
    rw [← hdraws.bytes]
    refine ⟨?_, fun before last later heq hlast => ?_⟩
    · rw [delivered_cons]
      exact (List.prefix_append_right_inj _).mpr hfront
    · cases before with
      | nil =>
        obtain ⟨rfl, -⟩ := List.cons.inj heq
        rw [(hdraws.loose.spent (hdraws.ended hlast)).left_eq_nil]
        exact delivered_cons a []
      | cons first before =>
        obtain ⟨rfl, hrests⟩ := List.cons.inj heq
        rw [List.cons_append, delivered_cons, hends before last later hrests hlast]

theorem Yields.delivers (h : b.Yields content) : b.Delivers content := by
  intro asks answers after hreading hrun
  obtain ⟨answers', after', hrun', -, hfront, hends⟩ := h asks hreading
  cases hrun.symm.trans hrun'
  exact ⟨hfront, fun before a later heq hend => (hends before a later heq hend).1⟩

/-! ## Whatever is asked -/

theorem Loose.keeps_of_capture (h : b.Loose) (hsource : b.source ≠ none)
    (hcapture : b.capture now limit = (.done finish (.ok ()), after)) : after.Keeps b.left := by
  refine ⟨captured_of_capture h.captured hsource hcapture, ?_⟩
  have hcursor : after.cursor = 0 := by
    obtain ⟨source, hsource⟩ := Option.ne_none_iff_exists'.mp hsource
    simp only [Body.capture, h.captured, hsource] at hcapture
    split at hcapture
    · cases hcapture
    · cases hcapture
    · cases hcapture
      rfl
  rw [hcursor]
  exact Nat.zero_le _

/-- A loose body with its source answers anything but a handing on in one of two ways: a reading that
comes to no end draws on the source, and behind all else the bytes are kept or there are none. -/
theorem Loose.answer?_cases (h : b.Loose) (hsource : b.source ≠ none) (hforward : ask ≠ .forward)
    (hask : b.answer? now ask = some (a, after)) :
    (ask.IsReading ∧ a.ends = false ∧ Draws b a after ∧ after.source ≠ none) ∨
    (¬ (ask.IsReading ∧ a.ends = false) ∧ (after.Spent ∨ ∃ kept, after.Keeps kept)) := by
  by_cases hreading : ask.IsReading
  · have hdraws := h.draws hreading hask
    cases hends : a.ends with
    | false => exact .inl ⟨hreading, rfl, hdraws, hdraws.going hends hsource⟩
    | true => exact .inr ⟨nofun, .inl (hdraws.loose.spent (hdraws.ended hends))⟩
  · refine .inr ⟨fun hboth => hreading hboth.1, ?_⟩
    cases ask with
    | read size => exact absurd trivial hreading
    | readAll => exact absurd trivial hreading
    | next => exact absurd trivial hreading
    | forward => exact absurd rfl hforward
    | close =>
      cases hask
      rw [Body.close]
      split
      · next hclosed => exact .inl (h.spent (h.closed hclosed))
      · exact .inl ⟨h.captured, rfl, rfl⟩
    | capture =>
      rw [answer?] at hask
      split at hask
      · next finish mid hcapture =>
        cases hask
        exact .inr ⟨_, h.keeps_of_capture hsource hcapture⟩
      · cases hask

/-- What some asks, none of which hands the body on, make of a loose body with its source: if they only
read and come to no end, it is as before but for what was delivered; if not, its bytes are kept or there
are none. -/
theorem Loose.answers?_cases (h : b.Loose) (hsource : b.source ≠ none)
    (hforward : ∀ ask ∈ asks, ask.2 ≠ .forward) (hrun : b.answers? asks = some (answers, after)) :
    (OnlyRead asks answers ∧ after.Loose ∧ after.source ≠ none ∧ after.length = b.length ∧
      delivered answers ++ after.left = b.left) ∨
    (¬ OnlyRead asks answers ∧ (after.Spent ∨ ∃ kept, after.Keeps kept)) := by
  -- on the asks: the first that does not only read settles what the body is from then on
  induction asks generalizing b answers with
  | nil =>
    cases hrun
    exact .inl ⟨⟨nofun, nofun⟩, h, hsource, rfl, rfl⟩
  | cons ask asks ih =>
    obtain ⟨a, mid, rest, hask, hrest, rfl⟩ := exists_of_answers?_cons hrun
    have hlater : ∀ ask ∈ asks, ask.2 ≠ .forward :=
      fun later hmem => hforward later (List.mem_cons_of_mem _ hmem)
    rcases h.answer?_cases hsource (hforward ask List.mem_cons_self) hask with
      ⟨hreading, hgoing, hdraws, hmid⟩ | ⟨hother, hsettled⟩
    · have honly : OnlyRead (ask :: asks) (a :: rest) ↔ OnlyRead asks rest :=
        ⟨fun hall => ⟨(List.forall_mem_cons.mp hall.reading).2, (List.forall_mem_cons.mp hall.going).2⟩,
          fun hall => ⟨List.forall_mem_cons.mpr ⟨hreading, hall.reading⟩,
            List.forall_mem_cons.mpr ⟨hgoing, hall.going⟩⟩⟩
      rw [honly]
      refine (ih hdraws.loose hmid hlater hrest).imp_left ?_
      rintro ⟨hall, hloose, hafter, hlength, hleft⟩
      refine ⟨hall, hloose, hafter, hlength.trans hdraws.length, ?_⟩
      rw [delivered_cons, List.append_assoc, hleft, hdraws.bytes]
    · refine .inr ⟨fun hall => hother ⟨hall.reading ask List.mem_cons_self,
        hall.going a List.mem_cons_self⟩, ?_⟩
      rcases hsettled with hspent | ⟨kept, hkeeps⟩
      · obtain ⟨_, _, hrest', hafter, -⟩ := hspent.answers asks
        cases hrest.symm.trans hrest'
        exact .inl hafter
      · obtain ⟨_, _, hrest', hafter, -⟩ := hkeeps.replays_all asks
        cases hrest.symm.trans hrest'
        exact .inr ⟨kept, hafter⟩

/-! ## Handing on -/

/-- Kept bytes are announced as they are handed on. -/
theorem Keeps.forward_eq (h : b.Keeps kept) : b.forward.1 = ofBytes kept := by
  simp only [Body.forward, h.captured]

/-- What a spent body hands on is announced as empty. -/
theorem Spent.sizeHint_forward (h : b.Spent) : b.forward.1.sizeHint = some 0 := by
  obtain ⟨hhanded, hlength, -⟩ := h.forward
  simp only [sizeHint, hhanded.captured, hhanded.pending, hlength, List.isEmpty_nil, if_true]

/-- What a loose body with its source hands on is announced by the length that was declared. -/
theorem Loose.length_of_sizeHint (h : b.Loose) (hsource : b.source ≠ none)
    (hsize : b.forward.1.sizeHint = some n) : b.length = some n := by
  obtain ⟨source, hsource⟩ := Option.ne_none_iff_exists'.mp hsource
  simp only [sizeHint, Body.forward, h.captured, hsource] at hsize
  split at hsize
  · simpa using hsize
  · cases hsize

theorem Loose.forward (h : b.Loose) : b.forward.1.Loose ∧ b.forward.1.left = b.left := by
  simp only [Body.forward, h.captured]
  exact ⟨⟨rfl, h.pending, by rintro ⟨⟩⟩, rfl⟩

/-- A body hands on what is left of it, also where it does not come to its end. -/
theorem delivers_forward (h : b.Loose ∨ ∃ kept, b.Keeps kept) :
    b.forward.1.Delivers b.forward.1.content := by
  rcases h with hloose | ⟨kept, hkeeps⟩
  · rw [content_of_not_captured hloose.forward.1.captured]
    exact hloose.forward.1.delivers
  · rw [hkeeps.forward_eq, content_ofBytes]
    exact (yields_ofBytes kept).delivers

theorem yields_forward (h : b.Streaming ∨ ∃ kept, b.Keeps kept) :
    b.forward.1.Yields b.forward.1.content := by
  rcases h with hstreaming | ⟨kept, hkeeps⟩
  · obtain ⟨hhanded, -⟩ := hstreaming.forward
    rw [content_of_not_captured hhanded.captured]
    exact hhanded.yields
  · rw [hkeeps.forward_eq, content_ofBytes]
    exact yields_ofBytes kept

theorem Spent.streaming (h : b.Spent) : b.Streaming :=
  ⟨h.captured, fun source hsource => by simp [h.source] at hsource, fun _ => h.pending⟩

/-- How much is announced of what some asks have left: one that only read announces the bytes that were
delivered once more. -/
theorem size_of_answers? {source : Source} {length : Option Nat}
    (hlength : ∀ n, length = some n → n = source.content.length)
    (hforward : ∀ ask ∈ asks, ask.2 ≠ .forward)
    (hrun : (ofSource source length).answers? asks = some (answers, b))
    (hsize : b.forward.1.sizeHint = some n) :
    (OnlyRead asks answers ∧ n = b.forward.1.content.length + (delivered answers).length) ∨
    (¬ OnlyRead asks answers ∧ n = b.forward.1.content.length) := by
  have hstart : (ofSource source length).Loose := loose_ofSource source length
  have hcontent := content_forward b
  rcases hstart.answers?_cases nofun hforward hrun with
    ⟨honly, hloose, hsource, hdeclared, hleft⟩ | ⟨hother, hspent | ⟨kept, hkeeps⟩⟩
  · refine .inl ⟨honly, ?_⟩
    have htotal : n = source.content.length :=
      hlength n (hdeclared.symm.trans (hloose.length_of_sizeHint hsource hsize))
    have hwhole : delivered answers ++ b.left = source.content := hleft
    rw [hcontent, content_of_not_captured hloose.captured, htotal, ← hwhole, List.length_append]
    omega
  · refine .inr ⟨hother, ?_⟩
    rw [hcontent, content_of_not_captured hspent.captured, hspent.left_eq_nil]
    exact Option.some.inj (hsize.symm.trans hspent.sizeHint_forward)
  · refine .inr ⟨hother, ?_⟩
    rw [hkeeps.forward_eq] at hsize ⊢
    rw [content_ofBytes]
    exact (Option.some.inj hsize).symm

/-- **An announced size is right unless bytes have gone without their end.** Of a body whose declared
length is that of its source, after any asks that were answered, what is handed on has as many bytes as
it announces exactly if more was done than to read, or a reading came to an end, or no byte was
delivered. Where the body was only read, it announces the bytes that were delivered as well. -/
theorem announced_size_right_iff {source : Source} {length : Option Nat}
    (hlength : ∀ n, length = some n → n = source.content.length)
    (hforward : ∀ ask ∈ asks, ask.2 ≠ .forward)
    (hrun : (ofSource source length).answers? asks = some (answers, b))
    (hsize : b.forward.1.sizeHint = some n) :
    (n = b.forward.1.content.length ↔ ¬ OnlyRead asks answers ∨ delivered answers = []) ∧
    (OnlyRead asks answers → n = b.forward.1.content.length + (delivered answers).length) ∧
    b.forward.1.Delivers b.forward.1.content ∧
    (source.Flows → b.forward.1.Yields b.forward.1.content) := by
  have hstart : (ofSource source length).Loose := loose_ofSource source length
  have hcases := hstart.answers?_cases nofun hforward hrun
  refine ⟨?_, fun honly => ?_, delivers_forward ?_, fun hflows => yields_forward ?_⟩
  · rcases size_of_answers? hlength hforward hrun hsize with ⟨honly, hn⟩ | ⟨hother, hn⟩
    · rw [← List.length_eq_zero_iff]
      constructor
      · intro hright
        exact .inr (by omega)
      · rintro (hother | hnothing)
        · exact absurd honly hother
        · omega
    · exact ⟨fun _ => .inl hother, fun _ => hn⟩
  · exact (size_of_answers? hlength hforward hrun hsize).elim (·.2) fun h => absurd honly h.1
  · rcases hcases with ⟨-, hloose, -⟩ | ⟨-, hspent | hkeeps⟩
    · exact .inl hloose
    · exact .inl hspent.loose
    · exact .inr hkeeps
  · rcases hcases with ⟨honly, hloose, -⟩ | ⟨-, hspent | hkeeps⟩
    · have hopen : ∀ ask ∈ asks, ask.2 ≠ .close := by
        intro ask hmem hclose
        have hreading := honly.reading ask hmem
        rw [hclose] at hreading
        exact hreading
      have hstreaming := streaming_ofSource hflows length
      exact .inl (hstreaming.left_of_answers? hopen hrun hloose.captured).1
    · exact .inl hspent.streaming
    · exact .inr hkeeps

/-! ## A reader that stops between two pieces -/

/-- A stream of four bytes in two pieces. -/
def twoPieces : Source where
  chunks := [.frame (.data [0x61, 0x62]), .frame (.data [0x63, 0x64])]

theorem flows_twoPieces : twoPieces.Flows := by
  refine ⟨fun c hc => ?_, fun _ _ => rfl⟩
  simp only [twoPieces, List.mem_cons, List.not_mem_nil, or_false] at hc
  rcases hc with rfl | rfl <;> trivial

/-- Captured behind its first byte, a body of four bytes announces three, and has them. -/
theorem announced_size_right_iff_captured :
    ∃ b, (ofSource twoPieces (some 4)).answers? [(0, .read 1), (0, .capture)] =
        some ([{ bytes := [0x61] }, {}], b) ∧
      b.forward.1.sizeHint = some 3 ∧ 3 = b.forward.1.content.length := by
  have hrun : (ofSource twoPieces (some 4)).answers? [(0, .read 1), (0, .capture)] =
      some ([{ bytes := [0x61] }, {}],
        { source := none, captured := some [0x62, 0x63, 0x64], length := some 4 }) := by
    cbv
  have hlength : ∀ n, some 4 = some n → n = twoPieces.content.length := by
    rintro n ⟨⟩
    decide
  have hforward : ∀ ask ∈ [((0 : Instant), Ask.read 1), (0, .capture)], ask.2 ≠ .forward := by decide
  refine ⟨_, hrun, rfl, ?_⟩
  refine (announced_size_right_iff hlength hforward hrun rfl).1.mpr (.inl fun honly => ?_)
  exact honly.reading (0, .capture) (.tail _ (.head _))

/-- Between its pieces, a body of four bytes announces four and gives out two. -/
theorem announced_size_counts_delivered :
    twoPieces.Flows ∧ twoPieces.content.length = 4 ∧
    ∃ b, (ofSource twoPieces (some 4)).answers? [(0, .read 2)] =
        some ([{ bytes := [0x61, 0x62] }], b) ∧
      b.forward.1.sizeHint = some 4 ∧ b.forward.1.Yields [0x63, 0x64] := by
  have hrun : (ofSource twoPieces (some 4)).answers? [(0, .read 2)] =
      some ([{ bytes := [0x61, 0x62] }],
        { source := some { twoPieces with chunks := [.frame (.data [0x63, 0x64])] }
          length := some 4 }) := by
    cbv
  have hopen : ∀ ask ∈ [((0 : Instant), Ask.read 2)], ask.2 ≠ .close := by decide
  have hstreaming := (streaming_ofSource flows_twoPieces (some 4)).left_of_answers? hopen hrun rfl
  exact ⟨flows_twoPieces, by decide, _, hrun, rfl, yields_forward (.inl hstreaming.1)⟩

end Gatehouse.Body
