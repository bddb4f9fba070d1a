import Mathlib.Data.List.Forall2
import Gatehouse.Filter.Builder
import Gatehouse.Proofs.Except
import Gatehouse.Proofs.Filter.Response
import Gatehouse.Proofs.Http.HopByHop
import Gatehouse.Proofs.Lookup

/-!
# What a chain of header filters does

A header filter edits the values of one header of the request, or of the response, and no other. So
the values of a header behind a chain are its values before it, with the edits of this header made on
them one after the other: those of requests in the order of the chain, those of responses in reverse
order. How the name of a header is spelt makes no difference.
-/

namespace Gatehouse

open Http (Headers HeaderName)

/-- What an edit makes of the values of its header. -/
def HeaderEdit.onValues (values : List Bytes) : HeaderEdit → List Bytes
  | .add value => values ++ [value]
  | .set value => [value]
  | .remove => []

/-- The edit of a header as it is asked for, with the name of the header spelt in some case. -/
structure HeaderRule where
  side : HeaderSide
  spelled : Bytes
  edit : HeaderEdit
  deriving DecidableEq, Repr

namespace HeaderRule

/-- The filter of a rule, if its name is one that a header can have. -/
def filter? (r : HeaderRule) : Option Filter :=
  (HeaderName.ofBytes? r.spelled).map fun name => .header r.side name r.edit

/-- Whether a rule is about a header on one side, in whatever case either is spelt. -/
def Concerns (side : HeaderSide) (spelled : Bytes) (r : HeaderRule) : Prop :=
  r.side = side ∧ r.spelled.map Bytes.toLower = spelled.map Bytes.toLower

instance (side : HeaderSide) (spelled : Bytes) : DecidablePred (Concerns side spelled) :=
  fun r => inferInstanceAs (Decidable (r.side = side ∧ _ = _))

/-- The edits that rules make of a header on one side, in order. -/
def editsOf (side : HeaderSide) (spelled : Bytes) (rules : List HeaderRule) : List HeaderEdit :=
  (rules.filter fun r => Concerns side spelled r).map HeaderRule.edit

end HeaderRule

variable {name other : HeaderName} {side : HeaderSide} {spelled : Bytes} {hs : Headers}
  {rules : List HeaderRule} {chain fs ran : List Filter} {f : Filter} {w w₁ : World} {x x₁ : Exchange}

namespace Filter

/-- The edit that a filter makes of a header on one side. -/
def edit? (side : HeaderSide) (name : HeaderName) : Filter → Option HeaderEdit
  | .header side' name' edit => if side' = side ∧ name' = name then some edit else none
  | _ => none

/-- Whether a filter edits a header, of requests or of responses. -/
def IsHeaderEdit : Filter → Prop
  | .header .. => True
  | _ => False

/-! ## One edit -/

theorem values_apply_self (edit : HeaderEdit) (name : HeaderName) (hs : Headers) :
    (edit.apply name hs).values name = edit.onValues (hs.values name) := by
  cases edit with
  | add value =>
    rw [HeaderEdit.apply, Headers.values_append, if_pos rfl]
    rfl
  | set value => exact Headers.values_set_self hs name value
  | remove =>
    rw [HeaderEdit.apply, Headers.values_remove, if_pos rfl]
    rfl

theorem values_apply (edit : HeaderEdit) (other name : HeaderName) (hs : Headers) :
    (edit.apply other hs).values name =
      if other = name then edit.onValues (hs.values name) else hs.values name := by
  by_cases h : other = name
  · rw [if_pos h, h]
    exact values_apply_self edit name hs
  · rw [if_neg h]
    exact values_apply_of_ne edit h

/-- Values with the edit of a filter made on them, if it makes one. -/
def edited (side : HeaderSide) (name : HeaderName) (values : List Bytes) (f : Filter) : List Bytes :=
  ((f.edit? side name).map (HeaderEdit.onValues values)).getD values

theorem values_pre_eq (hbuiltIn : f.IsBuiltIn) (w : World) (x : Exchange) :
    (f.pre w x).2.2.request.headers.values name =
      edited .request name (x.request.headers.values name) f := by
  cases f with
  | header side other edit =>
    cases side with
    | request =>
      simp only [pre, finish, edited, edit?, true_and]
      rw [values_apply]
      split <;> rfl
    | response => simp [pre, finish, edited, edit?]
  | pathEdit => exact values_pre hbuiltIn id w x
  | logger => exact values_pre hbuiltIn id w x
  | rateLimit => exact values_pre hbuiltIn id w x
  | custom => exact hbuiltIn.elim

theorem values_responseHeaders (f : Filter) (hs : Headers) (name : HeaderName) :
    (f.responseHeaders hs).values name = edited .response name (hs.values name) f := by
  cases f with
  | header side other edit =>
    cases side with
    | request => simp [responseHeaders, edited, edit?]
    | response =>
      simp only [responseHeaders, edited, edit?, true_and]
      rw [values_apply]
      split <;> rfl
  | _ => rfl

/-! ## Chains -/

/-- The values of a header behind filters that have run on the request. -/
theorem Ran.values_eq_foldl (h : Ran pre .pre fs w x ran none w₁ x₁)
    (hbuiltIn : ∀ f ∈ fs, f.IsBuiltIn) :
    x₁.request.headers.values name =
      fs.foldl (edited .request name) (x.request.headers.values name) := by
  induction fs generalizing w x ran with
  | nil =>
    cases h
    rfl
  | cons f fs ih =>
    cases h with
    | next hf hrest =>
      obtain ⟨v, hpre, -⟩ := exists_of_runHook hf
      rw [ih hrest fun g hg => hbuiltIn g (List.mem_cons_of_mem _ hg), List.foldl_cons,
        ← values_pre_eq (hbuiltIn f List.mem_cons_self) (w.note (.pre f.name)) x, hpre]

theorem values_foldl_responseHeaders (fs : List Filter) (hs : Headers) (name : HeaderName) :
    (fs.foldl (fun hs f => f.responseHeaders hs) hs).values name =
      fs.foldl (edited .response name) (hs.values name) := by
  induction fs generalizing hs with
  | nil => rfl
  | cons f fs ih => rw [List.foldl_cons, List.foldl_cons, ih, values_responseHeaders]

/-- Only the filters that edit a header count for its values. -/
theorem foldl_edited (side : HeaderSide) (name : HeaderName) (fs : List Filter)
    (values : List Bytes) :
    fs.foldl (edited side name) values =
      (fs.filterMap (edit? side name)).foldl HeaderEdit.onValues values := by
  induction fs generalizing values with
  | nil => rfl
  | cons f fs ih =>
    rw [List.foldl_cons, ih]
    cases hedit : f.edit? side name with
    | none => rw [List.filterMap_cons_none hedit, edited, hedit]; rfl
    | some edit => rw [List.filterMap_cons_some hedit, edited, hedit]; rfl

theorem IsHeaderEdit.isBuiltIn (h : f.IsHeaderEdit) : f.IsBuiltIn := by
  cases f with
  | header => trivial
  | _ => exact h.elim

/-- A chain of hooks that have nothing to wait for and never fail goes through at once. -/
theorem exists_runHooks_of_finish {hook : Filter → World → Exchange → HookResult}
    {event : String → Hook} {wrap : String → Error → Error}
    (hfinish : ∀ f ∈ fs, ∀ w x, ∃ x', hook f w x = finish w x') (w : World) (x : Exchange) :
    ∃ w' x', runHooks hook event wrap fs w x = (.passed, w', x') ∧ w'.now = w.now := by
  induction fs generalizing w x with
  | nil => exact ⟨w, x, rfl, rfl⟩
  | cons f fs ih =>
    obtain ⟨x', hf⟩ := hfinish f List.mem_cons_self (w.note (event f.name)) x
    have hrun : runHook hook event f w x = finish (w.note (event f.name)) x' := by
      rw [runHook, hf]
      rfl
    obtain ⟨w₂, x₂, hrest, hnow⟩ := ih (fun g hg => hfinish g (List.mem_cons_of_mem _ hg))
      (w.note (event f.name)) x'
    refine ⟨w₂, x₂, ?_, hnow⟩
    rw [runHooks, hrun]
    exact hrest

/-- Header filters never fail, and the values of a header behind them have their edits made on them. -/
theorem values_preAll (hchain : ∀ f ∈ chain, f.IsHeaderEdit) (w : World) (x : Exchange) :
    ∃ w' x', preAll chain w x = (.passed, w', x') ∧ w'.now = w.now ∧ ∀ name,
      x'.request.headers.values name =
        (chain.filterMap (edit? .request name)).foldl HeaderEdit.onValues
          (x.request.headers.values name) := by
  have hfinish : ∀ f ∈ chain, ∀ w x, ∃ x', f.pre w x = finish w x' := by
    intro f hf w x
    cases f with
    | header side name edit => cases side <;> exact ⟨_, rfl⟩
    | _ => exact (hchain _ hf).elim
  obtain ⟨w', x', hrun, hnow⟩ := exists_runHooks_of_finish hfinish w x
  refine ⟨w', x', hrun, hnow, fun name => ?_⟩
  rw [(ran_of_runHooks hrun).values_eq_foldl fun f hf => (hchain f hf).isBuiltIn, foldl_edited]

theorem values_postAll (hchain : ∀ f ∈ chain, f.IsHeaderEdit) (w : World) (x : Exchange) :
    ∃ w' x', postAll chain w x = (.passed, w', x') ∧ w'.now = w.now ∧ ∀ name,
      x'.response.map (·.headers.values name) =
        x.response.map fun r =>
          (chain.reverse.filterMap (edit? .response name)).foldl HeaderEdit.onValues
            (r.headers.values name) := by
  have hreverse : ∀ f ∈ chain.reverse, f.IsHeaderEdit :=
    fun f hf => hchain f (List.mem_reverse.mp hf)
  have hfinish : ∀ f ∈ chain.reverse, ∀ w x, ∃ x', f.post w x = finish w x' := by
    intro f hf w x
    cases f with
    | header side name edit => cases side <;> exact ⟨_, rfl⟩
    | _ => exact (hreverse _ hf).elim
  obtain ⟨w', x', hrun, hnow⟩ := exists_runHooks_of_finish hfinish w x
  have hran := ran_of_runHooks hrun
  refine ⟨w', x', hrun, hnow, fun name => ?_⟩
  cases hr : x.response with
  | none =>
    -- without a response there is nothing to edit
    have hnone : x'.response = none := by
      refine hran.preserves (fun y => y.response = none) (fun f hf w y hy => ?_) hr
      cases f with
      | header side name edit => cases side <;> simp [post, finish, hy]
      | _ => exact (hreverse _ hf).elim
    rw [hnone]
    rfl
  | some r =>
    obtain ⟨r', hr', hprocessed⟩ := hran.processedBy (fun f hf => (hreverse f hf).isBuiltIn) hr
    rw [hr', Option.map_some, Option.map_some, hprocessed.headers, values_foldl_responseHeaders,
      foldl_edited]

end Filter

/-! ## Rules -/

namespace HeaderRule

variable {r : HeaderRule}

theorem isHeaderEdit_of_filter? (h : r.filter? = some f) : f.IsHeaderEdit := by
  obtain ⟨name, -, rfl⟩ := Option.map_eq_some_iff.mp h
  trivial

/-- Two spellings are of one name if they differ in case only. -/
theorem lower_eq_iff {bs bs' : Bytes} {name name' : HeaderName}
    (h : HeaderName.ofBytes? bs = some name) (h' : HeaderName.ofBytes? bs' = some name') :
    bs.map Bytes.toLower = bs'.map Bytes.toLower ↔ name = name' := by
  have hlower {bs : Bytes} {name : HeaderName} (h : HeaderName.ofBytes? bs = some name) :
      name = ⟨bs.map Bytes.toLower⟩ := by
    rw [HeaderName.ofBytes?] at h
    split at h
    · exact (Option.some.inj h).symm
    · cases h
  rw [hlower h, hlower h', HeaderName.mk.injEq]

theorem edit?_eq (hr : r.filter? = some f) (hname : HeaderName.ofBytes? spelled = some name)
    (side : HeaderSide) :
    f.edit? side name = if Concerns side spelled r then some r.edit else none := by
  obtain ⟨other, hother, rfl⟩ := Option.map_eq_some_iff.mp hr
  simp only [Filter.edit?, Concerns, lower_eq_iff hother hname]

/-- The edits that the filters of rules make are those of the rules. -/
theorem filterMap_edit?_eq (hchain : List.Forall₂ (fun r f => r.filter? = some f) rules chain)
    (hname : HeaderName.ofBytes? spelled = some name) (side : HeaderSide) :
    chain.filterMap (Filter.edit? side name) = editsOf side spelled rules := by
  induction hchain with
  | nil => rfl
  | @cons r f rules chain hr _ ih =>
    have hedit := edit?_eq hr hname side
    by_cases h : Concerns side spelled r
    · rw [if_pos h] at hedit
      rw [List.filterMap_cons_some hedit, ih]
      simp only [editsOf, List.filter_cons, decide_eq_true h, if_true, List.map_cons]
    · rw [if_neg h] at hedit
      rw [List.filterMap_cons_none hedit, ih]
      simp only [editsOf, List.filter_cons, decide_eq_false h, Bool.false_eq_true, if_false]

/-- Rules of different headers can change places. -/
theorem editsOf_swap {a b : HeaderRule}
    (h : a.spelled.map Bytes.toLower ≠ b.spelled.map Bytes.toLower) (side : HeaderSide)
    (spelled : Bytes) (front back : List HeaderRule) :
    editsOf side spelled (front ++ b :: a :: back) =
      editsOf side spelled (front ++ a :: b :: back) := by
  have hone : ¬ (Concerns side spelled a ∧ Concerns side spelled b) :=
    fun hboth => h (hboth.1.2.trans hboth.2.2.symm)
  simp only [editsOf, List.filter_append, List.filter_cons, List.map_append]
  by_cases ha : Concerns side spelled a
  · have hb : ¬ Concerns side spelled b := fun hb => hone ⟨ha, hb⟩
    simp [ha, hb]
  · simp [ha]

end HeaderRule

/-! ## Filters that are built by name -/

namespace Filter

variable {args : Args}

theorem headerArgument_eq_ok {text : String} (h : headerArgument text = .ok name) :
    HeaderName.ofBytes? (Bytes.ofString text) = some name := by
  rw [headerArgument] at h
  split at h
  · next hname =>
    cases h
    exact hname
  · cases h

theorem headerValue_eq_ok {text : String} {value : Bytes} (h : headerValue text = .ok value) :
    value = Bytes.ofString text := by
  simp only [headerValue] at h
  split at h
  · cases h
    rfl
  · cases h

/-- Whether arguments name a header and, for an edit that has a value, the value. -/
structure NamedBy (args : Args) (r : HeaderRule) : Prop where
  name : ∃ text, args.getString "name" = .ok text ∧ r.spelled = Bytes.ofString text
  value : ∀ value, r.edit = .add value ∨ r.edit = .set value →
    ∃ text, args.getString "value" = .ok text ∧ value = Bytes.ofString text

theorem exists_rule_of_headerBuilder {edit : Bytes → HeaderEdit} (hedit : edit = .add ∨ edit = .set)
    (h : headerBuilder side edit args = .ok f) :
    ∃ header value, f = .header side header (edit value) ∧
      ∃ r : HeaderRule, NamedBy args r ∧ r.filter? = some f := by
  obtain ⟨text, hname, h⟩ := bind_eq_ok.mp h
  obtain ⟨shown, hvalue, h⟩ := bind_eq_ok.mp h
  obtain ⟨value, hshown, h⟩ := bind_eq_ok.mp h
  obtain ⟨header, hheader, h⟩ := bind_eq_ok.mp h
  cases h
  refine ⟨header, value, rfl, ⟨side, Bytes.ofString text, edit value⟩,
    ⟨⟨text, hname, rfl⟩, fun v hv => ⟨shown, hvalue, ?_⟩⟩, ?_⟩
  · rw [← headerValue_eq_ok hshown]
    rcases hedit with rfl | rfl
    · simpa [eq_comm] using hv
    · simpa [eq_comm] using hv
  · exact Option.map_eq_some_iff.mpr ⟨header, headerArgument_eq_ok hheader, rfl⟩

theorem exists_rule_of_removeBuilder (h : removeBuilder side args = .ok f) :
    ∃ header, f = .header side header .remove ∧
      ∃ r : HeaderRule, NamedBy args r ∧ r.filter? = some f := by
  obtain ⟨text, hname, h⟩ := bind_eq_ok.mp h
  obtain ⟨header, hheader, h⟩ := bind_eq_ok.mp h
  cases h
  refine ⟨header, rfl, ⟨side, Bytes.ofString text, .remove⟩, ⟨⟨text, hname, rfl⟩, fun v hv => ?_⟩, ?_⟩
  · simp at hv
  · exact Option.map_eq_some_iff.mpr ⟨header, headerArgument_eq_ok hheader, rfl⟩

theorem exists_of_loggerBuilder (h : loggerBuilder args = .ok f) :
    ∃ level maxBody, f = .logger level maxBody := by
  rw [loggerBuilder] at h
  obtain ⟨shown, -, h⟩ := bind_eq_ok.mp h
  have hlevel : ∃ level, (do
      let maxBody ← if args.contains "max-body-bytes" then args.getNat "max-body-bytes"
        else pure defaultMaxBody
      return Filter.logger level maxBody : Except BuildError Filter) = .ok f := by
    cases shown with
    | none => exact ⟨.info, h⟩
    | some text =>
      obtain ⟨level, -, h⟩ := bind_eq_ok.mp h
      exact ⟨level, h⟩
  obtain ⟨level, h⟩ := hlevel
  split at h
  · obtain ⟨maxBody, -, h⟩ := bind_eq_ok.mp h
    cases h
    exact ⟨level, maxBody, rfl⟩
  · cases h
    exact ⟨level, defaultMaxBody, rfl⟩

theorem exists_of_rateLimitBuilder (h : rateLimitBuilder args = .ok f) :
    ∃ place rate burst key, f = .rateLimit place rate burst key := by
  obtain ⟨_, -, h⟩ := bind_eq_ok.mp h
  obtain ⟨_, -, h⟩ := bind_eq_ok.mp h
  obtain ⟨_, -, h⟩ := bind_eq_ok.mp h
  obtain ⟨_, -, h⟩ := bind_eq_ok.mp h
  cases h
  exact ⟨_, _, _, _, rfl⟩

theorem exists_of_pathEditOf {room : Regex.Capacity} {regexp replacement : String}
    (h : pathEditOf room regexp replacement = .ok f) :
    ∃ pattern replaced, f = .pathEdit pattern replaced := by
  obtain ⟨_, -, h⟩ := bind_eq_ok.mp h
  cases h
  exact ⟨_, _, rfl⟩

/-- What the gateway builds under a name is the filter of a rule that the arguments name, and has that
name, or it is another filter of the gateway. -/
theorem build_cases {room : Regex.Capacity} {label : String}
    (hbuild : (registry room).build label args = .ok f) :
    (f.name = label ∧ ∃ r : HeaderRule, NamedBy args r ∧ r.filter? = some f) ∨
      (f.IsBuiltIn ∧ ¬ f.IsHeaderEdit) := by
  rw [Registry.build] at hbuild
  split at hbuild
  · next builder hbuilder =>
    have hmem : (label, builder) ∈ (registry room).builders := mem_of_lookup hbuilder
    simp only [registry, List.mem_cons, Prod.mk.injEq, List.not_mem_nil, or_false] at hmem
    -- in the order of the registry: the six header filters, and three that are none
    rcases hmem with ⟨rfl, rfl⟩ | ⟨rfl, rfl⟩ | ⟨rfl, rfl⟩ | ⟨rfl, rfl⟩ | ⟨rfl, rfl⟩ | ⟨rfl, rfl⟩ |
      ⟨rfl, rfl⟩ | ⟨rfl, rfl⟩ | ⟨rfl, rfl⟩
    · obtain ⟨header, value, rfl, hrule⟩ := exists_rule_of_headerBuilder (.inl rfl) hbuild
      exact .inl ⟨rfl, hrule⟩
    · obtain ⟨header, value, rfl, hrule⟩ := exists_rule_of_headerBuilder (.inr rfl) hbuild
      exact .inl ⟨rfl, hrule⟩
    · obtain ⟨header, rfl, hrule⟩ := exists_rule_of_removeBuilder hbuild
      exact .inl ⟨rfl, hrule⟩
    · obtain ⟨header, value, rfl, hrule⟩ := exists_rule_of_headerBuilder (.inl rfl) hbuild
      exact .inl ⟨rfl, hrule⟩
    · obtain ⟨header, value, rfl, hrule⟩ := exists_rule_of_headerBuilder (.inr rfl) hbuild
      exact .inl ⟨rfl, hrule⟩
    · obtain ⟨header, rfl, hrule⟩ := exists_rule_of_removeBuilder hbuild
      exact .inl ⟨rfl, hrule⟩
    · obtain ⟨regexp, -, hbuild⟩ := bind_eq_ok.mp hbuild
      obtain ⟨replacement, -, hbuild⟩ := bind_eq_ok.mp hbuild
      obtain ⟨pattern, replaced, rfl⟩ := exists_of_pathEditOf hbuild
      exact .inr ⟨trivial, id⟩
    · obtain ⟨level, maxBody, rfl⟩ := exists_of_loggerBuilder hbuild
      exact .inr ⟨trivial, id⟩
    · obtain ⟨place, rate, burst, key, rfl⟩ := exists_of_rateLimitBuilder hbuild
      exact .inr ⟨trivial, id⟩
  · cases hbuild

/-- A header filter that the gateway builds is the filter of a rule that the arguments name. -/
theorem exists_rule_of_build {room : Regex.Capacity} {label : String} (hheader : f.IsHeaderEdit)
    (hbuild : (registry room).build label args = .ok f) :
    f.name = label ∧ ∃ r : HeaderRule, NamedBy args r ∧ r.filter? = some f :=
  (build_cases hbuild).resolve_right fun hother => hother.2 hheader

theorem isBuiltIn_of_build {room : Regex.Capacity} {label : String}
    (hbuild : (registry room).build label args = .ok f) : f.IsBuiltIn := by
  rcases build_cases hbuild with ⟨-, r, -, hfilter⟩ | ⟨hbuiltIn, -⟩
  · exact (HeaderRule.isHeaderEdit_of_filter? hfilter).isBuiltIn
  · exact hbuiltIn

end Filter

/-! ## Chains of rules -/

namespace Filter

/-- The values of a header of the request behind a chain. -/
def requestValues (chain : List Filter) (w : World) (x : Exchange) (name : HeaderName) : List Bytes :=
  (preAll chain w x).2.2.request.headers.values name

/-- The values of a header of the response behind a chain, if there is a response. -/
def responseValues (chain : List Filter) (w : World) (x : Exchange) (name : HeaderName) :
    Option (List Bytes) :=
  (postAll chain w x).2.2.response.map (·.headers.values name)

end Filter

namespace HeaderRule

theorem isHeaderEdit_of_mem (hchain : List.Forall₂ (fun r f => filter? r = some f) rules chain) :
    ∀ f ∈ chain, f.IsHeaderEdit := by
  induction hchain with
  | nil => exact nofun
  | cons hr _ ih => exact List.forall_mem_cons.mpr ⟨isHeaderEdit_of_filter? hr, ih⟩

theorem requestValues_eq (hchain : List.Forall₂ (fun r f => filter? r = some f) rules chain)
    (hname : HeaderName.ofBytes? spelled = some name) (w : World) (x : Exchange) :
    Filter.requestValues chain w x name =
      (editsOf .request spelled rules).foldl HeaderEdit.onValues (x.request.headers.values name) := by
  obtain ⟨w', x', hrun, -, hvalues⟩ := Filter.values_preAll (isHeaderEdit_of_mem hchain) w x
  rw [Filter.requestValues, hrun, hvalues, filterMap_edit?_eq hchain hname]

theorem responseValues_eq (hchain : List.Forall₂ (fun r f => filter? r = some f) rules chain)
    (hname : HeaderName.ofBytes? spelled = some name) (w : World) (x : Exchange) :
    Filter.responseValues chain w x name =
      x.response.map fun r =>
        (editsOf .response spelled rules.reverse).foldl HeaderEdit.onValues
          (r.headers.values name) := by
  obtain ⟨w', x', hrun, -, hvalues⟩ := Filter.values_postAll (isHeaderEdit_of_mem hchain) w x
  rw [Filter.responseValues, hrun, hvalues,
    filterMap_edit?_eq (List.forall₂_reverse_iff.mpr hchain) hname]

/-- A removal with an addition behind it leaves the value that is added. -/
theorem foldl_onValues_remove_add (edits : List HeaderEdit) (values : List Bytes) (value : Bytes) :
    (edits ++ [HeaderEdit.remove, .add value]).foldl HeaderEdit.onValues values = [value] := by
  rw [List.foldl_append]
  rfl

end HeaderRule

/-- **A header ends up with its edits, in order.** A chain of header filters never fails and takes no
time. Behind it each header of the request has the values that its own edits make of the values it had,
in the order of the chain, and each header of a response those that its own edits make of them in
reverse order; how a name is spelt makes no difference, and a header that is not edited keeps its
values. So two neighbours that edit different headers can change places, and a removal with an addition
behind it leaves the one value that is added. -/
theorem header_values_fold_edits
    (hchain : List.Forall₂ (fun r f => HeaderRule.filter? r = some f) rules chain)
    (w : World) (x : Exchange) :
    ((Filter.preAll chain w x).1 = .passed ∧ (Filter.preAll chain w x).2.1.now = w.now) ∧
    ((Filter.postAll chain w x).1 = .passed ∧ (Filter.postAll chain w x).2.1.now = w.now) ∧
    ∀ spelled name, HeaderName.ofBytes? spelled = some name →
      (Filter.requestValues chain w x name =
        (HeaderRule.editsOf .request spelled rules).foldl HeaderEdit.onValues
          (x.request.headers.values name)) ∧
      (Filter.responseValues chain w x name =
        x.response.map fun r =>
          (HeaderRule.editsOf .response spelled rules.reverse).foldl HeaderEdit.onValues
            (r.headers.values name)) ∧
      (∀ front a b back swapped, rules = front ++ a :: b :: back →
        a.spelled.map Bytes.toLower ≠ b.spelled.map Bytes.toLower →
        List.Forall₂ (fun r f => HeaderRule.filter? r = some f) (front ++ b :: a :: back) swapped →
        Filter.requestValues swapped w x name = Filter.requestValues chain w x name ∧
        Filter.responseValues swapped w x name = Filter.responseValues chain w x name) ∧
      (∀ (edits : List HeaderEdit) (value : Bytes),
        HeaderRule.editsOf .request spelled rules = edits ++ [.remove, .add value] →
        Filter.requestValues chain w x name = [value]) ∧
      (∀ (edits : List HeaderEdit) (value : Bytes),
        HeaderRule.editsOf .response spelled rules.reverse = edits ++ [.remove, .add value] →
        Filter.responseValues chain w x name = x.response.map fun _ => [value]) := by
  have hheader := HeaderRule.isHeaderEdit_of_mem hchain
  refine ⟨?_, ?_, fun spelled name hname => ?_⟩
  · obtain ⟨w', x', hrun, hnow, -⟩ := Filter.values_preAll hheader w x
    rw [hrun]
    exact ⟨rfl, hnow⟩
  · obtain ⟨w', x', hrun, hnow, -⟩ := Filter.values_postAll hheader w x
    rw [hrun]
    exact ⟨rfl, hnow⟩
  · have hrequest := HeaderRule.requestValues_eq hchain hname w x
    have hresponse := HeaderRule.responseValues_eq hchain hname w x
    refine ⟨hrequest, hresponse, ?_, ?_, ?_⟩
    · rintro front a b back swapped rfl hne hswapped
      have hreverse : HeaderRule.editsOf .response spelled (front ++ b :: a :: back).reverse =
          HeaderRule.editsOf .response spelled (front ++ a :: b :: back).reverse := by
        simp only [List.reverse_append, List.reverse_cons, List.append_assoc, List.cons_append,
          List.nil_append]
        exact HeaderRule.editsOf_swap hne.symm .response spelled back.reverse front.reverse
      rw [hrequest, hresponse, HeaderRule.requestValues_eq hswapped hname,
        HeaderRule.responseValues_eq hswapped hname, HeaderRule.editsOf_swap hne, hreverse]
      exact ⟨rfl, rfl⟩
    · intro edits value hedits
      rw [hrequest, hedits]
      exact HeaderRule.foldl_onValues_remove_add edits _ value
    · intro edits value hedits
      rw [hresponse, hedits]
      simp only [HeaderRule.foldl_onValues_remove_add]

/-! ## A chain that names the server -/

/-- Rules that give a request one environment and a response the servers behind it. -/
def serverRules : List HeaderRule :=
  [⟨.request, Bytes.ofString "X-Env", .remove⟩,
   ⟨.response, Bytes.ofString "server", .add (Bytes.ofString "b")⟩,
   ⟨.request, Bytes.ofString "x-env", .add (Bytes.ofString "prod")⟩,
   ⟨.response, Bytes.ofString "Server", .set (Bytes.ofString "a")⟩]

/-- The filters of these rules. -/
def serverChain : List Filter :=
  [.header .request (.literal "x-env") .remove,
   .header .response (.literal "server") (.add (Bytes.ofString "b")),
   .header .request (.literal "x-env") (.add (Bytes.ofString "prod")),
   .header .response (.literal "server") (.set (Bytes.ofString "a"))]

/-- Two values of the environment become one, and of the server first one is set and then one is added. -/
theorem header_values_fold_edits_server :
    let x : Exchange :=
      { Exchange.withHeaders [⟨.literal "x-env", [0x31]⟩, ⟨.literal "x-env", [0x32]⟩] with
        response := some { headers := [⟨.literal "server", [0x33]⟩] } }
    List.Forall₂ (fun r f => HeaderRule.filter? r = some f) serverRules serverChain ∧
    Filter.requestValues serverChain default x (.literal "x-env") = [Bytes.ofString "prod"] ∧
    Filter.responseValues serverChain default x (.literal "server") =
      some [Bytes.ofString "a", Bytes.ofString "b"] := by
  intro x
  have hchain : List.Forall₂ (fun r f => HeaderRule.filter? r = some f) serverRules serverChain :=
    .cons rfl (.cons rfl (.cons rfl (.cons rfl .nil)))
  obtain ⟨-, -, hvalues⟩ := header_values_fold_edits hchain default x
  obtain ⟨-, -, -, hadded, -⟩ := hvalues (Bytes.ofString "x-env") (.literal "x-env") (by decide)
  obtain ⟨-, hserver, -⟩ := hvalues (Bytes.ofString "server") (.literal "server") (by decide)
  refine ⟨hchain, hadded [] (Bytes.ofString "prod") (by decide), ?_⟩
  rw [hserver]
  decide

end Gatehouse
