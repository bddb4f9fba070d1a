import Gatehouse.Proofs.Config.RoundTrip

/-!
# Reading back a written duration

A duration is written as a text, and one that is left out as `null`. Either is read back as it was,
from the tree of a value in any format and from the text of a JSON value (`durations_read_back`).
-/

namespace Gatehouse.Config

variable {d : Duration}

/-- The text of a duration is read back, however the format spells it. -/
theorem duration_format (hd : d.seconds < Duration.limit) (spelling : Option String) :
    Node.duration (.scalar (.text d.format) spelling) = .ok d := by
  rw [Node.duration, Duration.parse?_format hd]

theorem durationOptionValue_exact (o : Option Duration) : (durationOptionValue o).Exact := by
  cases o <;> trivial

theorem depth_durationOptionValue (o : Option Duration) :
    (durationOptionValue o).depth ≤ Json.maxDepth := by
  cases o <;> exact Nat.zero_le _

/-- What may be left out is read back from the tree of its value. -/
theorem durationOption_ofValue {o : Option Duration} (ho : ∀ d ∈ o, d.seconds < Duration.limit) :
    Node.optional Node.duration (Node.ofValue (durationOptionValue o)) = .ok o := by
  cases o with
  | none => rfl
  | some d =>
    have hread := duration_ofValue (ho d rfl)
    have hvalue : durationValue d ≠ .null := nofun
    rw [durationOptionValue, Option.map_some, Option.getD_some, Node.optional_ofValue _ hvalue, hread]
    rfl

/-- **Every duration is read back from its text**, down to the nanosecond, if its whole seconds fit a
word of 64 bits. One that may be left out is read back as well, and as left out if it was. -/
theorem durations_read_back :
    (∀ d : Duration, d.seconds < Duration.limit →
      (∀ spelling, Node.duration (.scalar (.text d.format) spelling) = .ok d) ∧
      ∃ tree, Format.tree? .json (durationValue d).write.toList = some tree ∧
        Node.duration tree = .ok d) ∧
    (∀ o : Option Duration, (∀ d ∈ o, d.seconds < Duration.limit) →
      ∃ tree, Format.tree? .json (durationOptionValue o).write.toList = some tree ∧
        Node.optional Node.duration tree = .ok o) := by
  constructor
  · intro d hd
    have htree := tree?_write (v := durationValue d) trivial (Nat.zero_le _)
    exact ⟨duration_format hd, _, htree, duration_ofValue hd⟩
  · intro o ho
    have htree := tree?_write (durationOptionValue_exact o) (depth_durationOptionValue o)
    exact ⟨_, htree, durationOption_ofValue ho⟩

/-- The longest duration, which ends in every unit of a fraction of a second, and one left out. -/
theorem durations_read_back_longest :
    let longest : Duration := .ofSeconds (Duration.limit - 1) + 999999999
    longest.seconds < Duration.limit ∧ Node.duration (Node.ofText longest.format) = .ok longest ∧
    ∃ tree, Format.tree? .json (durationOptionValue none).write.toList = some tree ∧
      Node.optional Node.duration tree = .ok none := by
  intro longest
  have hlongest : longest.seconds < Duration.limit := by decide
  obtain ⟨hread, hoption⟩ := durations_read_back
  exact ⟨hlongest, (hread longest hlongest).1 _, hoption none nofun⟩

end Gatehouse.Config
