import Gatehouse.Config.Decode
import Gatehouse.Proofs.Config.Node
import Gatehouse.Proofs.Except

/-!
# How a spec is written

A spec is read in two places: in the lists of a configuration from a tree (`specOfNode`), and where a
builder has another one among its arguments from a value (`Args.getSpec?`). `Spells` is how either takes
a value to be written: a bare name, or an object with a name and perhaps with arguments, and with
anything else beside them. The reader of arguments also takes `null` for no arguments, and the reader of
lists does not.
-/

namespace Gatehouse

open Json (Value Fields)

/-- A value spells a spec: a bare name, or an object that has the name and, if there are any, the
arguments. -/
inductive Spec.Spells : Value → Spec → Prop
  | bare (name : String) : Spells (.string name) ⟨name, {}⟩
  | named {fields : Fields} {name : String} : fields.lookup "name" = some (.string name) →
      fields.lookup "args" = none → Spells (.object fields) ⟨name, {}⟩
  | full {fields arguments : Fields} {name : String} :
      fields.lookup "name" = some (.string name) →
      fields.lookup "args" = some (.object arguments) → Spells (.object fields) ⟨name, ⟨arguments⟩⟩

/-- A value spells a spec without arguments, but for a `null` in their place. -/
inductive Spec.SpellsWithNull : Value → Spec → Prop
  | intro {fields : Fields} {name : String} : fields.lookup "name" = some (.string name) →
      fields.lookup "args" = some .null → SpellsWithNull (.object fields) ⟨name, {}⟩

variable {fields : Fields} {v : Value} {s s' : Spec} {args : Args} {key name : String}

/-- A value with `null` for arguments spells nothing. -/
theorem Spec.SpellsWithNull.not_spells (h : SpellsWithNull v s) : ¬ Spells v s' := by
  intro hspells
  cases h with
  | intro _ hnull =>
    cases hspells with
    | named _ hargs => cases hnull.symm.trans hargs
    | full _ hargs => cases hnull.symm.trans hargs

namespace Config

open Node (readField ofValue)
open Spec (Spells SpellsWithNull)

/-! ## The fields of a spec -/

/-- The name of a spec, which is a text in every format. -/
def nameOfNode : Node → Except Fault String
  | .scalar (.text name) _ => .ok name
  | _ => .error .wrongType

/-- The arguments of a spec. -/
def argsOfNode : Node → Except Fault Args
  | .mapping fields => (Node.toFields [] fields).map Args.mk
  | _ => .error .wrongType

theorem nameOfNode_ofValue : nameOfNode (ofValue v) = .ok name ↔ v = .string name := by
  cases v with
  | number x => cases x <;> simp [ofValue, Node.scalarOfNumber, nameOfNode]
  | _ => simp [ofValue, Node.ofText, nameOfNode]

theorem argsOfNode_ofValue (hlegal : v.Legal) (hsorted : v.Sorted) :
    argsOfNode (ofValue v) = .ok args ↔ v = .object args.fields := by
  cases v with
  | object fields =>
    have hread : Node.toFields [] (Node.ofValueFields fields) = .ok fields :=
      Node.toFields_ofValueFields [] hsorted.1 hlegal hsorted.2
    rw [ofValue, argsOfNode, hread]
    obtain ⟨arguments⟩ := args
    simp [Except.map]
  | number x => cases x <;> simp [ofValue, Node.scalarOfNumber, argsOfNode]
  | _ => simp [ofValue, Node.ofText, argsOfNode]

theorem specOfNode_mapping {fields : List (Key × Node)}
    (hreadable : Node.fieldsAreReadable fields = true) :
    specOfNode (.mapping fields) = (Node.known ["name", "args"] fields >>= fun given =>
      given.require "name" nameOfNode >>= fun name =>
        given.get "args" argsOfNode {} >>= fun args => .ok ⟨name, args⟩) := by
  rw [specOfNode, hreadable]
  rfl

/-! ## The two readers -/

theorem readField_name {fault : Fault} {o : Option Value} :
    readField nameOfNode (.error fault) o = .ok name ↔ o = some (.string name) := by
  cases o with
  | none => simp [readField]
  | some v => rw [Node.readField_some, nameOfNode_ofValue, Option.some_inj]

theorem readField_args {o : Option Value} (h : ∀ v, o = some v → v.Legal ∧ v.Sorted) :
    readField argsOfNode (.ok {}) o = .ok args ↔
      o = none ∧ args = {} ∨ o = some (.object args.fields) := by
  cases o with
  | none => simp [readField, eq_comm]
  | some v =>
    rw [Node.readField_some, argsOfNode_ofValue (h v rfl).1 (h v rfl).2]
    simp

/-- The reader of lists reads what is spelled. -/
theorem specOfNode_ofValue_iff (hlegal : v.Legal) (hsorted : v.Sorted) :
    specOfNode (ofValue v) = .ok s ↔ Spells v s := by
  cases v with
  | object fields =>
    have hnodup : (fields.map Prod.fst).Nodup := hsorted.1.imp fun hlt => String.ne_of_lt hlt
    have hargs (v : Value) (hv : fields.lookup "args" = some v) : v.Legal ∧ v.Sorted :=
      ⟨Value.fieldsLegal_iff.mp hlegal _ (mem_of_lookup hv),
        Value.fieldsSorted_iff.mp hsorted.2 _ (mem_of_lookup hv)⟩
    have hlookup (key : String) (h : key ∈ ["name", "args"]) :=
      lookup_filter_of_mem ["name", "args"] fields h
    rw [ofValue, specOfNode_mapping (Node.fieldsAreReadable_ofValueFields hlegal),
      Node.known_ofValueFields _ hnodup, ok_bind]
    simp only [bind_eq_ok, Node.require_written, Node.get_written, hlookup "name" (by decide),
      hlookup "args" (by decide), readField_name, readField_args hargs, Except.ok.injEq]
    constructor
    · rintro ⟨name, hname, args, ⟨hargs, rfl⟩ | hargs, rfl⟩
      · exact .named hname hargs
      · exact .full hname hargs
    · intro h
      cases h with
      | named hname hargs => exact ⟨_, hname, _, .inl ⟨hargs, rfl⟩, rfl⟩
      | full hname hargs => exact ⟨_, hname, _, .inr hargs, rfl⟩
  | string name =>
    constructor
    · rintro ⟨⟩
      exact .bare name
    · rintro ⟨⟩
      rfl
  | number x => cases x <;> exact ⟨nofun, nofun⟩
  | _ => exact ⟨nofun, nofun⟩

/-- The reader of arguments reads what is spelled, and takes a `null` for no arguments. -/
theorem specOfValue?_iff : Args.specOfValue? v = some s ↔ Spells v s ∨ SpellsWithNull v s := by
  cases v with
  | object fields =>
    simp only [Args.specOfValue?, Fields.get?, bind, Option.bind_eq_some_iff]
    constructor
    · rintro ⟨v, hname, name, hstring, hargs⟩
      cases v with
      | string text =>
        obtain rfl : text = name := Option.some_inj.mp hstring
        match hgiven : fields.lookup "args" with
        | none =>
          rw [hgiven] at hargs
          cases hargs
          exact .inl (.named hname hgiven)
        | some .null =>
          rw [hgiven] at hargs
          cases hargs
          exact .inr ⟨hname, hgiven⟩
        | some (.object arguments) =>
          rw [hgiven] at hargs
          cases hargs
          exact .inl (.full hname hgiven)
        | some (.bool _) | some (.number _) | some (.string _) | some (.array _) =>
          rw [hgiven] at hargs
          cases hargs
      | _ => cases hstring
    · rintro (h | h)
      · cases h with
        | named hname hargs => exact ⟨_, hname, _, rfl, by rw [hargs]; rfl⟩
        | full hname hargs => exact ⟨_, hname, _, rfl, by rw [hargs]; rfl⟩
      · obtain ⟨hname, hargs⟩ := h
        exact ⟨_, hname, _, rfl, by rw [hargs]; rfl⟩
  | string name =>
    constructor
    · rintro ⟨⟩
      exact .inl (.bare name)
    · rintro (h | h)
      · cases h
        rfl
      · cases h
  | _ => exact ⟨nofun, fun h => h.elim nofun nofun⟩

theorem getSpec?_iff (hv : args.get? key = some v) :
    args.getSpec? key = .ok (some s) ↔ Args.specOfValue? v = some s := by
  rw [Args.getSpec?, hv]
  cases h : Args.specOfValue? v <;> simp [h]

/-- **The two readers of a spec agree, but for `null`.** The lists of a configuration have the spec that a
value spells, and a nested builder has it too. They have the same spec from a value, if any, exactly if
the value does not give `null` for arguments, which only the reader of nested builders takes. -/
theorem spec_readers_agree_iff (hv : args.get? key = some v) (hlegal : v.Legal)
    (hsorted : v.Sorted) :
    (∀ s, specOfNode (ofValue v) = .ok s ↔ Spells v s) ∧
    (∀ s, args.getSpec? key = .ok (some s) ↔ Spells v s ∨ SpellsWithNull v s) ∧
    ((∀ s, specOfNode (ofValue v) = .ok s ↔ args.getSpec? key = .ok (some s)) ↔
      ∀ s, ¬ SpellsWithNull v s) := by
  have hlist (s : Spec) : specOfNode (ofValue v) = .ok s ↔ Spells v s :=
    specOfNode_ofValue_iff hlegal hsorted
  have hnested (s : Spec) : args.getSpec? key = .ok (some s) ↔ Spells v s ∨ SpellsWithNull v s := by
    rw [getSpec?_iff hv, specOfValue?_iff]
  refine ⟨hlist, hnested, ?_⟩
  simp only [hlist, hnested]
  constructor
  · intro hagree s hnull
    exact hnull.not_spells ((hagree s).mpr (.inr hnull))
  · intro hnone s
    exact ⟨.inl, fun h => h.resolve_right (hnone s)⟩

/-- Arguments of a rate limit with a limiter. -/
def limitedBy (limiter : Value) : Args := ⟨[("limiter", limiter)]⟩

/-- A limiter with a rate of two and a half and a remark is the same for both readers. -/
theorem spec_readers_agree_iff_remark :
    let rate : Json.Number := .double ⟨0x4004000000000000⟩
    let v : Value := .object
      [("args", .object [("rate", .number rate)]), ("name", .string "in-memory"), ("remark", .null)]
    let s : Spec := ⟨"in-memory", ⟨[("rate", .number rate)]⟩⟩
    (limitedBy v).get? "limiter" = some v ∧ v.Legal ∧ v.Sorted ∧
      specOfNode (ofValue v) = .ok s ∧ (limitedBy v).getSpec? "limiter" = .ok (some s) := by
  intro rate v s
  have hv : (limitedBy v).get? "limiter" = some v := rfl
  have hlegal : v.Legal := ⟨⟨rfl, trivial⟩, trivial, trivial, trivial⟩
  have hsorted : v.Sorted := ⟨by decide, ⟨by decide, trivial, trivial⟩, trivial, trivial, trivial⟩
  have hspells : Spells v s := .full rfl rfl
  obtain ⟨hlist, hnested, -⟩ := spec_readers_agree_iff hv hlegal hsorted
  exact ⟨hv, hlegal, hsorted, (hlist s).mpr hspells, (hnested s).mpr (.inl hspells)⟩

/-- A limiter with `null` for its arguments is one without any where it is nested, and none in a list. -/
theorem null_arguments_divide_readers :
    let v : Value := .object [("args", .null), ("name", .string "in-memory")]
    (limitedBy v).get? "limiter" = some v ∧ v.Legal ∧ v.Sorted ∧
      (limitedBy v).getSpec? "limiter" = .ok (some ⟨"in-memory", {}⟩) ∧
      ∀ s, specOfNode (ofValue v) ≠ .ok s := by
  intro v
  have hlegal : v.Legal := ⟨trivial, trivial, trivial⟩
  have hsorted : v.Sorted := ⟨by decide, trivial, trivial, trivial⟩
  refine ⟨rfl, hlegal, hsorted, rfl, fun s h => ?_⟩
  have hnull : SpellsWithNull v ⟨"in-memory", {}⟩ := ⟨rfl, rfl⟩
  exact hnull.not_spells ((specOfNode_ofValue_iff hlegal hsorted).mp h)

end Config

end Gatehouse
