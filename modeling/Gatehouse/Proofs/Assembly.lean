import Mathlib.Data.List.Forall2
import Gatehouse.Assembly
import Gatehouse.Proofs.Except
import Gatehouse.Regex.Estimate

/-!
# Assembling a valid configuration

What validation accepts of a route is all that its assembly asks for, apart from the builders of its
predicates and filters and the beginning of its breaker. So the assembly of a valid configuration
refuses it only where one of the builders fails (`BuilderFails`), and panics only where the end of the
first generation of a breaker cannot be told. Otherwise `Made` says what it makes of each entry of the
configuration.
-/

namespace Gatehouse

namespace Config

/-- What validation asks of the id, the URI and the log level of a route. -/
structure RouteEntry.Sound (r : RouteEntry) : Prop where
  id : Text.isBlankText r.id = false
  uri : ∃ url, Url.parse (.ofString r.uri) = .ok url ∧ url.isWeb = true
  logLevel : ∀ level, r.logLevel = some level → (Threshold.ofText? level).isSome = true

variable {seen : List String} {r : RouteEntry} {routes : List RouteEntry} {c : Config}

theorem checkUri_eq_ok {id uri : String} (h : checkUri id uri = .ok ()) :
    ∃ url, Url.parse (.ofString uri) = .ok url ∧ url.isWeb = true := by
  rw [checkUri] at h
  match hparse : Url.parse (.ofString uri) with
  | .error cause =>
    rw [hparse] at h
    cases h
  | .ok url =>
    rw [hparse] at h
    by_cases hweb : url.isWeb = true
    · exact ⟨url, rfl, hweb⟩
    · simp only [hweb] at h
      cases h

theorem checkLogLevel_eq_ok {id : String} {logLevel : Option String}
    (h : checkLogLevel id logLevel = .ok ()) :
    ∀ level, logLevel = some level → (Threshold.ofText? level).isSome = true := by
  rintro level rfl
  rw [checkLogLevel] at h
  by_cases hlevel : (Threshold.ofText? level).isSome = true
  · exact hlevel
  · rw [if_neg hlevel] at h
    cases h

theorem checkRoute_eq_ok (h : checkRoute seen r = .ok ()) : r.Sound ∧ r.id ∉ seen := by
  unfold checkRoute at h
  obtain ⟨hid, h⟩ := refuse_eq_ok.mp h
  obtain ⟨hseen, h⟩ := refuse_eq_ok.mp h
  obtain ⟨_, huri, h⟩ := bind_eq_ok.mp h
  obtain ⟨_, -, h⟩ := bind_eq_ok.mp h
  obtain ⟨_, -, h⟩ := bind_eq_ok.mp h
  obtain ⟨_, hlevel, -⟩ := bind_eq_ok.mp h
  exact ⟨⟨Bool.eq_false_iff.mpr hid, checkUri_eq_ok huri, checkLogLevel_eq_ok hlevel⟩, hseen⟩

/-- Routes that are accepted one after another have ids of their own. -/
theorem checkRoutes_eq_ok (h : checkRoutes seen routes = .ok ()) :
    (∀ r ∈ routes, r.Sound ∧ r.id ∉ seen) ∧ (routes.map (·.id)).Nodup := by
  induction routes generalizing seen with
  | nil => exact ⟨nofun, List.nodup_nil⟩
  | cons r rest ih =>
    obtain ⟨_, hroute, hrest⟩ := bind_eq_ok.mp h
    obtain ⟨hsound, hnodup⟩ := ih hrest
    have hother : ∀ r' ∈ rest, r'.id ≠ r.id ∧ r'.id ∉ seen := by
      intro r' hr'
      exact not_or.mp (List.mem_cons.not.mp (hsound r' hr').2)
    refine ⟨?_, List.nodup_cons.mpr ⟨?_, hnodup⟩⟩
    · intro r' hr'
      rcases List.mem_cons.mp hr' with rfl | hr'
      · exact checkRoute_eq_ok hroute
      · exact ⟨(hsound r' hr').1, (hother r' hr').2⟩
    · intro hmem
      obtain ⟨r', hr', hid⟩ := List.mem_map.mp hmem
      exact (hother r' hr').1 hid

/-- The routes of a valid configuration are sound, and no two have the same id. -/
theorem routes_of_validate (h : c.validate = .ok ()) :
    (∀ r ∈ c.gateway.routes, r.Sound) ∧ (c.gateway.routes.map (·.id)).Nodup := by
  unfold validate at h
  obtain ⟨_, -, h⟩ := bind_eq_ok.mp h
  obtain ⟨-, h⟩ := refuse_eq_ok.mp h
  obtain ⟨_, -, h⟩ := bind_eq_ok.mp h
  obtain ⟨_, hroutes, -⟩ := bind_eq_ok.mp h
  obtain ⟨hsound, hnodup⟩ := checkRoutes_eq_ok hroutes
  exact ⟨fun r hr => (hsound r hr).1, hnodup⟩

end Config

namespace Assembly

variable {α : Type} {registry : Registry α} {registries : Registries} {specs : List Spec}
  {annotate : String → BuildError → ConfigError} {globalTimeout : Option Duration} {now : Duration}
  {r : Config.RouteEntry} {entries : List Config.RouteEntry} {c : Config} {e : ConfigError}
  {fault : Fault}

/-- An instance is what the builder that a spec names makes of the spec's arguments. -/
def Builds (registry : Registry α) (spec : Spec) (instance_ : α) : Prop :=
  registry.build spec.name spec.args = .ok instance_

/-- The error of a configuration in which a builder fails: it names the builder with whose it is. -/
inductive BuilderFails (registries : Registries) (g : Config.Gateway) : ConfigError → Prop
  | predicate {r : Config.RouteEntry} {spec : Spec} {cause : BuildError} :
      r ∈ g.routes → spec ∈ r.predicates →
      registries.predicates.build spec.name spec.args = .error cause →
      BuilderFails registries g (.specFailed r.id "predicate" spec.name cause)
  | filter {r : Config.RouteEntry} {spec : Spec} {cause : BuildError} :
      r ∈ g.routes → spec ∈ r.filters →
      registries.filters.build spec.name spec.args = .error cause →
      BuilderFails registries g (.specFailed r.id "filter" spec.name cause)
  | globalFilter {spec : Spec} {cause : BuildError} :
      spec ∈ g.globalFilters → registries.filters.build spec.name spec.args = .error cause →
      BuilderFails registries g (.globalFilterFailed spec.name cause)

/-- The end of the first generation of an entry's breaker can be told, if it has a breaker. -/
def BreakerBegins (now : Duration) (r : Config.RouteEntry) : Prop :=
  ∀ settings, r.breaker = some settings →
    Breaker.expiryFits (policyOf r.id settings) .closed now = true

/-- Filters are the instances of some specs in order, with places of their own from `start` on. -/
def Chains (registry : Registry Filter) (specs : List Spec) (start : Nat) (chain : List Filter) :
    Prop :=
  ∃ built, List.Forall₂ (Builds registry) specs built ∧ chain = placeFilters start built

/-- What is made of an entry of a configuration at an instant. -/
structure Made (registries : Registries) (now : Duration) (globalTimeout : Option Duration)
    (r : Config.RouteEntry) (route : Route) : Prop where
  id : route.id = r.id
  uri : Url.parse (.ofString r.uri) = .ok route.uri
  predicates : List.Forall₂ (Builds registries.predicates) r.predicates route.predicates
  filters : ∃ start, Chains registries.filters r.filters start route.filters
  /-- The timeout of its own or else the global one; zero stands for none. -/
  timeout : route.timeout = (r.timeout.or globalTimeout).filter (· ≠ 0)
  breaker : route.breaker = r.breaker.map fun settings =>
    ⟨policyOf r.id settings, Breaker.start (policyOf r.id settings) now⟩
  logLevel : route.logLevel = r.logLevel.bind Threshold.ofText?

/-- A configuration that names no predicates and no filters. -/
def NamesNothing (c : Config) : Prop :=
  (∀ r ∈ c.gateway.routes, r.predicates = [] ∧ r.filters = []) ∧ c.gateway.globalFilters = []

theorem NamesNothing.not_builderFails (hc : NamesNothing c) (registries : Registries)
    (e : ConfigError) : ¬ BuilderFails registries c.gateway e := by
  intro hfails
  cases hfails with
  | predicate hr hspec | filter hr hspec =>
    simp only [hc.1 _ hr] at hspec
    cases hspec
  | globalFilter hspec =>
    rw [hc.2] at hspec
    cases hspec

/-! ## Instances -/

theorem buildAll_eq_ok {instances : List α} (h : buildAll registry annotate specs = .ok instances) :
    List.Forall₂ (Builds registry) specs instances := by
  induction specs generalizing instances with
  | nil =>
    cases h
    exact .nil
  | cons spec rest ih =>
    rw [buildAll] at h
    match hbuild : registry.build spec.name spec.args with
    | .error cause =>
      rw [hbuild] at h
      cases h
    | .ok a =>
      rw [hbuild] at h
      obtain ⟨others, hothers, rfl⟩ := map_eq_ok.mp h
      exact .cons hbuild (ih hothers)

theorem buildAll_eq_error (h : buildAll registry annotate specs = .error e) :
    ∃ spec ∈ specs, ∃ cause, registry.build spec.name spec.args = .error cause ∧
      e = annotate spec.name cause := by
  induction specs with
  | nil => cases h
  | cons spec rest ih =>
    rw [buildAll] at h
    match hbuild : registry.build spec.name spec.args with
    | .error cause =>
      rw [hbuild] at h
      cases h
      exact ⟨spec, List.mem_cons_self, cause, hbuild, rfl⟩
    | .ok a =>
      rw [hbuild] at h
      obtain ⟨other, hmem, cause, hcause, rfl⟩ := ih (map_eq_error.mp h)
      exact ⟨other, List.mem_cons_of_mem _ hmem, cause, hcause, rfl⟩

/-! ## Routes -/

/-- The level of a sound route is one. -/
theorem levelOf_of_sound (h : r.Sound) : levelOf r.id r.logLevel = .ok (r.logLevel.bind Threshold.ofText?) := by
  match hlevel : r.logLevel with
  | none => rfl
  | some text =>
    obtain ⟨level, htext⟩ := Option.isSome_iff_exists.mp (h.logLevel text hlevel)
    simp only [levelOf, htext, Option.bind_some]

/-- The id and the URI of a sound route make a route. -/
theorem ofTexts_of_sound (h : r.Sound) : ∃ url, Url.parse (.ofString r.uri) = .ok url ∧
    Route.ofTexts r.id r.uri = .ok { id := r.id, uri := url } := by
  obtain ⟨url, hparse, hweb⟩ := h.uri
  have hid : ¬ r.id.isEmpty = true := by
    intro hempty
    have hblank := h.id
    rw [String.isEmpty_iff.mp hempty] at hblank
    cases hblank
  refine ⟨url, hparse, ?_⟩
  simp only [Route.ofTexts, if_neg hid, hparse, if_pos hweb]

theorem bind_nonZero (d : Option Duration) : d.bind Route.nonZero = d.filter (· ≠ 0) := by
  cases d with
  | none => rfl
  | some d =>
    by_cases hd : d = 0
    · simp [Route.nonZero, hd, Option.filter]
    · simp [Route.nonZero, hd, Option.filter]

/-- A breaker begins where the end of its first generation can be told, and panics elsewhere. -/
theorem beginBreaker_eq_ok {breaker : Option RouteBreaker}
    (h : beginBreaker now r.id r.breaker = .ok breaker) :
    BreakerBegins now r ∧ breaker = r.breaker.map fun settings =>
      ⟨policyOf r.id settings, Breaker.start (policyOf r.id settings) now⟩ := by
  rw [BreakerBegins]
  cases hsettings : r.breaker with
  | none =>
    rw [hsettings] at h
    cases h
    exact ⟨nofun, rfl⟩
  | some settings =>
    cases hfits : Breaker.expiryFits (policyOf r.id settings) .closed now with
    | false =>
      simp only [hsettings, beginBreaker, Breaker.begin_, hfits] at h
      cases h
    | true =>
      simp only [hsettings, beginBreaker, Breaker.begin_, hfits, if_true] at h
      cases h
      exact ⟨by rintro _ ⟨⟩; exact hfits, rfl⟩

theorem beginBreaker_eq_error (h : beginBreaker now r.id r.breaker = .error fault) :
    fault = .panicked .overflow ∧ ¬ BreakerBegins now r := by
  cases hsettings : r.breaker with
  | none =>
    rw [hsettings] at h
    cases h
  | some settings =>
    cases hfits : Breaker.expiryFits (policyOf r.id settings) .closed now with
    | true =>
      simp only [hsettings, beginBreaker, Breaker.begin_, hfits, if_true] at h
      cases h
    | false =>
      simp only [hsettings, beginBreaker, Breaker.begin_, hfits] at h
      cases h
      exact ⟨rfl, fun hbegins => Bool.false_ne_true (hfits.symm.trans (hbegins _ hsettings))⟩

/-- What stops the assembly at an entry: one of its builders, or the beginning of its breaker. -/
inductive EntryFails (registries : Registries) (now : Duration) (r : Config.RouteEntry) : Fault → Prop
  | predicate {spec : Spec} {cause : BuildError} :
      spec ∈ r.predicates → registries.predicates.build spec.name spec.args = .error cause →
      EntryFails registries now r (.refused (.specFailed r.id "predicate" spec.name cause))
  | filter {spec : Spec} {cause : BuildError} :
      spec ∈ r.filters → registries.filters.build spec.name spec.args = .error cause →
      EntryFails registries now r (.refused (.specFailed r.id "filter" spec.name cause))
  | breaker : ¬ BreakerBegins now r → EntryFails registries now r (.panicked .overflow)

/-- A sound route is built unless one of its builders fails or its breaker cannot begin. -/
theorem buildRoute_eq_error (h : r.Sound)
    (he : buildRoute registries now globalTimeout r = .error fault) :
    EntryFails registries now r fault := by
  obtain ⟨url, -, hroute⟩ := ofTexts_of_sound h
  unfold buildRoute at he
  rcases bind_eq_error.mp he with he | ⟨predicates, -, he⟩
  · obtain ⟨e, hbuild, rfl⟩ := mapError_eq_error.mp he
    obtain ⟨spec, hspec, cause, hcause, rfl⟩ := buildAll_eq_error hbuild
    exact .predicate hspec hcause
  rcases bind_eq_error.mp he with he | ⟨filters, -, he⟩
  · obtain ⟨e, hbuild, rfl⟩ := mapError_eq_error.mp he
    obtain ⟨spec, hspec, cause, hcause, rfl⟩ := buildAll_eq_error hbuild
    exact .filter hspec hcause
  rcases bind_eq_error.mp he with he | ⟨breaker, -, he⟩
  · obtain ⟨rfl, hends⟩ := beginBreaker_eq_error he
    exact .breaker hends
  -- the level and the texts are those that validation has accepted
  rw [levelOf_of_sound h, hroute] at he
  cases he

theorem made_of_buildRoute (h : r.Sound) {route : Route}
    (hroute : buildRoute registries now globalTimeout r = .ok route) (start : Nat) :
    BreakerBegins now r ∧ Made registries now globalTimeout r
      { route with filters := placeFilters start route.filters } := by
  obtain ⟨url, hparse, htexts⟩ := ofTexts_of_sound h
  unfold buildRoute at hroute
  obtain ⟨predicates, hpredicates, hroute⟩ := bind_eq_ok.mp hroute
  obtain ⟨filters, hfilters, hroute⟩ := bind_eq_ok.mp hroute
  obtain ⟨breaker, hbreaker, hroute⟩ := bind_eq_ok.mp hroute
  obtain ⟨hbegins, rfl⟩ := beginBreaker_eq_ok hbreaker
  rw [levelOf_of_sound h, htexts] at hroute
  cases hroute
  exact ⟨hbegins, {
    id := rfl
    uri := hparse
    predicates := buildAll_eq_ok (mapError_eq_ok.mp hpredicates)
    filters := ⟨start, filters, buildAll_eq_ok (mapError_eq_ok.mp hfilters), rfl⟩
    timeout := by rw [bind_nonZero, Option.orElse_eq_orElse, Option.orElse_eq_or]
    breaker := rfl
    logLevel := rfl }⟩

theorem buildRoutes_eq_error (hsound : ∀ r ∈ entries, r.Sound)
    (he : buildRoutes registries now globalTimeout entries = .error fault) :
    ∃ r ∈ entries, EntryFails registries now r fault := by
  induction entries with
  | nil => cases he
  | cons r rest ih =>
    rw [List.forall_mem_cons] at hsound
    rcases bind_eq_error.mp he with he | ⟨route, -, he⟩
    · exact ⟨r, List.mem_cons_self, buildRoute_eq_error hsound.1 he⟩
    · rcases bind_eq_error.mp he with he | ⟨routes, -, ⟨⟩⟩
      obtain ⟨other, hother, hfails⟩ := ih hsound.2 he
      exact ⟨other, List.mem_cons_of_mem _ hother, hfails⟩

theorem made_of_buildRoutes (hsound : ∀ r ∈ entries, r.Sound) {routes : List Route}
    (hroutes : buildRoutes registries now globalTimeout entries = .ok routes) (start : Nat) :
    (∀ r ∈ entries, BreakerBegins now r) ∧
      List.Forall₂ (Made registries now globalTimeout) entries (placeRoutes start routes) := by
  induction entries generalizing routes start with
  | nil =>
    cases hroutes
    exact ⟨List.forall_mem_nil _, .nil⟩
  | cons r rest ih =>
    rw [List.forall_mem_cons] at hsound
    obtain ⟨route, hroute, hroutes⟩ := bind_eq_ok.mp hroutes
    obtain ⟨others, hothers, hroutes⟩ := bind_eq_ok.mp hroutes
    cases hroutes
    obtain ⟨hbegins, hmade⟩ := made_of_buildRoute hsound.1 hroute start
    obtain ⟨hbeginsLater, hmadeLater⟩ := ih hsound.2 hothers _
    exact ⟨List.forall_mem_cons.mpr ⟨hbegins, hbeginsLater⟩, .cons hmade hmadeLater⟩

/-! ## The assembly -/

/-- Routes made of entries have the ids of the entries. -/
theorem map_id_of_made {routes : List Route}
    (h : List.Forall₂ (Made registries now globalTimeout) entries routes) :
    routes.map (·.id) = entries.map (·.id) := by
  induction h with
  | nil => rfl
  | cons hmade _ ih => rw [List.map_cons, List.map_cons, hmade.id, ih]

/-- Among routes with distinct ids each is found by its id. -/
theorem find?_id_of_mem {routes : List Route} (hnodup : (routes.map (·.id)).Nodup) {route : Route}
    (h : route ∈ routes) : routes.find? (·.id == route.id) = some route := by
  induction routes with
  | nil => cases h
  | cons first rest ih =>
    obtain ⟨hfirst, hrest⟩ := List.nodup_cons.mp hnodup
    rcases List.mem_cons.mp h with rfl | h
    · exact List.find?_cons_of_pos (by simp)
    · have hne : first.id ≠ route.id := by
        intro heq
        exact hfirst (List.mem_map.mpr ⟨route, h, heq.symm⟩)
      rw [List.find?_cons_of_neg (by simpa using hne)]
      exact ih hrest h

/-- What stops the assembly of sound routes stops it at one of them, or at a global filter. -/
theorem ofConfig_eq_error (hsound : ∀ r ∈ c.gateway.routes, r.Sound)
    (he : ofConfig registries now c = .error fault) :
    (∃ r ∈ c.gateway.routes, EntryFails registries now r fault) ∨
      ∃ spec ∈ c.gateway.globalFilters, ∃ cause,
        registries.filters.build spec.name spec.args = .error cause ∧
          fault = .refused (.globalFilterFailed spec.name cause) := by
  rcases bind_eq_error.mp he with he | ⟨table, -, he⟩
  · rcases bind_eq_error.mp he with he | ⟨routes, -, ⟨⟩⟩
    exact .inl (buildRoutes_eq_error hsound he)
  · rcases bind_eq_error.mp he with he | ⟨globals, -, ⟨⟩⟩
    obtain ⟨e, hglobals, rfl⟩ := mapError_eq_error.mp he
    rcases bind_eq_error.mp hglobals with hbuild | ⟨built, -, ⟨⟩⟩
    obtain ⟨spec, hspec, cause, hcause, rfl⟩ := buildAll_eq_error hbuild
    exact .inr ⟨spec, hspec, cause, hcause, rfl⟩

/-- What is refused is refused by a builder. -/
theorem builderFails_of_refused (hsound : ∀ r ∈ c.gateway.routes, r.Sound)
    (he : ofConfig registries now c = .error (.refused e)) :
    BuilderFails registries c.gateway e := by
  rcases ofConfig_eq_error hsound he with ⟨r, hr, hfails⟩ | hfails
  · cases hfails with
    | predicate hspec hcause => exact .predicate hr hspec hcause
    | filter hspec hcause => exact .filter hr hspec hcause
  · obtain ⟨spec, hspec, cause, hcause, hfault⟩ := hfails
    cases hfault
    exact .globalFilter hspec hcause

/-- What panics is the beginning of a breaker. -/
theorem exists_entry_of_panicked (hsound : ∀ r ∈ c.gateway.routes, r.Sound) {panic : Panic}
    (hpanic : ofConfig registries now c = .error (.panicked panic)) :
    ∃ r ∈ c.gateway.routes, ¬ BreakerBegins now r := by
  rcases ofConfig_eq_error hsound hpanic with ⟨r, hr, hfails⟩ | ⟨_, -, _, -, hfault⟩
  · cases hfails with
    | breaker hends => exact ⟨r, hr, hends⟩
  · cases hfault

/-- What an assembly is made of. -/
theorem made_of_ofConfig (hsound : ∀ r ∈ c.gateway.routes, r.Sound) {a : Assembly}
    (ha : ofConfig registries now c = .ok a) :
    (∀ r ∈ c.gateway.routes, BreakerBegins now r) ∧
      List.Forall₂ (Made registries now c.gateway.globalTimeout) c.gateway.routes a.table.routes ∧
      Chains registries.filters c.gateway.globalFilters 0 a.globals := by
  obtain ⟨table, htable, ha⟩ := bind_eq_ok.mp ha
  obtain ⟨routes, hroutes, htable⟩ := bind_eq_ok.mp htable
  obtain ⟨globals, hglobals, ha⟩ := bind_eq_ok.mp ha
  obtain ⟨built, hbuilt, hglobals⟩ := bind_eq_ok.mp (mapError_eq_ok.mp hglobals)
  cases htable
  cases hglobals
  cases ha
  obtain ⟨hbegins, hmade⟩ := made_of_buildRoutes hsound hroutes c.gateway.globalFilters.length
  exact ⟨hbegins, hmade, built, buildAll_eq_ok hbuilt, rfl⟩

/-- What is made of the entry at a position is at that position. -/
theorem exists_made_of_getElem? {routes : List Route}
    (h : List.Forall₂ (Made registries now globalTimeout) entries routes) {i : Nat}
    (hr : entries[i]? = some r) :
    ∃ route, routes[i]? = some route ∧ Made registries now globalTimeout r route := by
  induction h generalizing i with
  | nil => cases hr
  | cons hmade _ ih =>
    cases i with
    | zero =>
      cases hr
      exact ⟨_, rfl, hmade⟩
    | succ i => exact ih hr

/-- **The assembly of a valid configuration.** It refuses the configuration only where the builder of
some predicate or filter fails. Otherwise the table has the routes that are made of the entries, in
order and with distinct ids, each of which is found by the id of its entry, and the global filters are
the instances of their specs.

A configuration may be valid although its breakers cannot begin. Then the assembly panics, unless it
is refused; and it panics only then. -/
theorem ofConfig_of_validate (registries : Registries) (now : Duration) (h : c.validate = .ok ()) :
    (∀ e, ofConfig registries now c = .error (.refused e) → BuilderFails registries c.gateway e) ∧
    (∀ panic, ofConfig registries now c = .error (.panicked panic) →
      ∃ r ∈ c.gateway.routes, ¬ BreakerBegins now r) ∧
    ∀ a, ofConfig registries now c = .ok a →
      (∀ r ∈ c.gateway.routes, BreakerBegins now r) ∧
      List.Forall₂ (Made registries now c.gateway.globalTimeout) c.gateway.routes a.table.routes ∧
      (a.table.routes.map (·.id)).Nodup ∧
      (∀ (i : Nat) (r : Config.RouteEntry), c.gateway.routes[i]? = some r →
        ∃ route, a.table.routes[i]? = some route ∧ a.table.get? r.id = some route ∧
          Made registries now c.gateway.globalTimeout r route) ∧
      Chains registries.filters c.gateway.globalFilters 0 a.globals := by
  obtain ⟨hsound, hnodup⟩ := Config.routes_of_validate h
  refine ⟨fun e he => builderFails_of_refused hsound he,
    fun panic hpanic => exists_entry_of_panicked hsound hpanic, fun a ha => ?_⟩
  obtain ⟨hbegins, hmade, hglobals⟩ := made_of_ofConfig hsound ha
  rw [← map_id_of_made hmade] at hnodup
  refine ⟨hbegins, hmade, hnodup, ?_, hglobals⟩
  intro i r hr
  obtain ⟨route, hroute, hmatch⟩ := exists_made_of_getElem? hmade hr
  refine ⟨route, hroute, ?_, hmatch⟩
  rw [← hmatch.id]
  exact find?_id_of_mem hnodup (List.mem_of_getElem? hroute)

/-- A route with a timeout of zero and one without a timeout, under a global timeout. -/
def twoRoutes : Config where
  gateway := {
    routes := [
      { id := "get", uri := "http://a/", timeout := some 0
        predicates := [⟨"Method", ⟨[("methods", .string "get")]⟩⟩] },
      { id := "all", uri := "http://b/"
        filters := [⟨"RemoveRequestHeader", ⟨[("name", .string "x-user")]⟩⟩] }]
    globalFilters := [⟨"RequestResponseLogger", {}⟩]
    globalTimeout := some (.ofSeconds 5) }

/-- Only the route without a timeout has the global one. -/
theorem ofConfig_of_validate_twoRoutes :
    let registries := Registries.builtIn .estimated
    twoRoutes.validate = .ok () ∧ ∃ a, ofConfig registries 0 twoRoutes = .ok a ∧
      (∃ route, a.table.get? "get" = some route ∧ route.timeout = none) ∧
      ∃ route, a.table.get? "all" = some route ∧ route.timeout = some (.ofSeconds 5) := by
  intro registries
  have hvalid : twoRoutes.validate = .ok () := by decide +kernel
  have hok : (ofConfig registries 0 twoRoutes).isOk = true := by decide +kernel
  match ha : ofConfig registries 0 twoRoutes with
  | .error fault =>
    rw [ha] at hok
    cases hok
  | .ok a =>
    obtain ⟨-, -, -, hget, -⟩ := (ofConfig_of_validate registries 0 hvalid).2.2 a ha
    obtain ⟨first, -, hfirst, hmade⟩ := hget 0 _ rfl
    obtain ⟨second, -, hsecond, hmade'⟩ := hget 1 _ rfl
    exact ⟨hvalid, a, rfl, ⟨first, hfirst, hmade.timeout⟩, second, hsecond, hmade'.timeout⟩

/-- A route whose breaker is to forget its counts after 10 ^ 19 s. -/
def overlongInterval : Config where
  gateway := {
    routes := [{ id := "order", uri := "http://b/"
                 breaker := some { interval := .ofSeconds 10000000000000000000 } }] }

/-- It is valid and names nothing that has to be built, but cannot be assembled. -/
theorem overlongInterval_panics :
    let registries := Registries.builtIn .estimated
    overlongInterval.validate = .ok () ∧
      (∀ e, ¬ BuilderFails registries overlongInterval.gateway e) ∧
      (∃ panic, ofConfig registries 0 overlongInterval = .error (.panicked panic)) := by
  intro registries
  have hnames : NamesNothing overlongInterval := ⟨by simp [overlongInterval], rfl⟩
  exact ⟨by decide +kernel, hnames.not_builderFails registries, .overflow, rfl⟩

end Assembly

/-! ## The application -/

namespace Application

variable {registries : Registries} {start : Duration} {config : Config} {app : Application}

/-- The routes of an application are made of the entries of its configuration, its global filters of
their specs. -/
theorem made_of_ofConfig (happ : ofConfig registries start config = .ok app) :
    app.config = config ∧
      List.Forall₂ (Assembly.Made registries start config.gateway.globalTimeout)
        config.gateway.routes app.assembly.table.routes ∧
      Assembly.Chains registries.filters config.gateway.globalFilters 0 app.assembly.globals := by
  obtain ⟨_, hvalid, happ⟩ := bind_eq_ok.mp happ
  obtain ⟨assembly, hassembly, happ⟩ := bind_eq_ok.mp happ
  cases happ
  have hsound := (Config.routes_of_validate (mapError_eq_ok.mp hvalid)).1
  exact ⟨rfl, (Assembly.made_of_ofConfig hsound hassembly).2⟩

/-- A valid configuration is assembled, if it is, to an application. -/
theorem ofConfig_eq_map (hvalid : config.validate = .ok ()) (start : Duration) :
    ofConfig registries start config =
      (Assembly.ofConfig registries start config).map fun assembly => { config, assembly } := by
  rw [ofConfig, Assembly.refusing, hvalid]
  cases Assembly.ofConfig registries start config <;> rfl

/-- A valid configuration that does not panic and whose builders succeed becomes an application. -/
theorem exists_ofConfig (hvalid : config.validate = .ok ())
    (hbuilders : ∀ e, ¬ Assembly.BuilderFails registries config.gateway e) {start : Duration}
    (hpanic : ∀ panic, ofConfig registries start config ≠ .error (.panicked panic)) :
    ∃ app, ofConfig registries start config = .ok app := by
  match happ : ofConfig registries start config with
  | .ok app => exact ⟨app, rfl⟩
  | .error (.panicked panic) => exact absurd happ (hpanic panic)
  | .error (.refused e) =>
    rw [ofConfig_eq_map hvalid] at happ
    have hsound := (Config.routes_of_validate hvalid).1
    exact absurd (Assembly.builderFails_of_refused hsound (map_eq_error.mp happ)) (hbuilders e)

end Application

end Gatehouse
