import Gatehouse.Proofs.Assembly
import Gatehouse.Proofs.Filter.HeaderEdits
import Gatehouse.Proofs.Handler.Answer
import Gatehouse.Proofs.Lookup

/-!
# Steady handlers

A handler answers by parts that are given to it: predicates, filters, mounted handlers and a client.
Any of them may break down, and the request with it. The predicates and filters that the gateway
builds never do (`steady_ofApplication`), and behind steady parts a request breaks down at most where
the sum of a limit or of the breaker of its route is beyond the end of the timeline
(`Steady.handle_ne_panicked`).
-/

namespace Gatehouse

/-- A receiver that never breaks down. -/
def Receiver.Steady (receiver : Receiver) : Prop :=
  ∀ o now limit finish, (receiver o now limit).1 ≠ .done finish (.ok .panicked)

/-- A predicate that never panics. -/
def Predicate.Steady (p : Predicate) : Prop := ∀ clock r panic, p.test clock r ≠ .error panic

/-- A handler of which no part that is given to it breaks down. -/
structure Handler.Steady (h : Handler) : Prop where
  mounts : ∀ m ∈ h.mounts, Receiver.Steady m.2
  predicates : ∀ route ∈ h.table.routes, ∀ p ∈ route.predicates, p.Steady
  filters : ∀ route ∈ h.table.routes, ∀ f ∈ h.chain route, f.Steady

/-! ## What the gateway builds -/

/-- What the gateway builds for a predicate is none of the predicates that may panic. -/
theorem Predicate.steady_of_build {room : Regex.Capacity} {label : String} {args : Args}
    {p : Predicate} (hbuild : (registry room).build label args = .ok p) : p.Steady := by
  rw [Registry.build] at hbuild
  split at hbuild
  · next builder hbuilder =>
    have hmem : (label, builder) ∈ (registry room).builders := mem_of_lookup hbuilder
    simp only [registry, List.mem_cons, Prod.mk.injEq, List.not_mem_nil, or_false] at hmem
    rcases hmem with ⟨rfl, rfl⟩ | ⟨rfl, rfl⟩ | ⟨rfl, rfl⟩ | ⟨rfl, rfl⟩ | ⟨rfl, rfl⟩ | ⟨rfl, rfl⟩ |
      ⟨rfl, rfl⟩ | ⟨rfl, rfl⟩ | ⟨rfl, rfl⟩
    · obtain ⟨names, -, hbuild⟩ := bind_eq_ok.mp hbuild
      obtain ⟨methods, -, hbuild⟩ := bind_eq_ok.mp hbuild
      cases hbuild
      rintro _ _ _ ⟨⟩
    · obtain ⟨patterns, -, hbuild⟩ := bind_eq_ok.mp hbuild
      cases hbuild
      rintro _ _ _ ⟨⟩
    · obtain ⟨texts, -, hbuild⟩ := bind_eq_ok.mp hbuild
      obtain ⟨patterns, -, hbuild⟩ := bind_eq_ok.mp hbuild
      cases hbuild
      rintro _ _ _ ⟨⟩
    · obtain ⟨text, -, hbuild⟩ := bind_eq_ok.mp hbuild
      obtain ⟨regexp, -, hbuild⟩ := bind_eq_ok.mp hbuild
      obtain ⟨header, -, hbuild⟩ := bind_eq_ok.mp hbuild
      obtain ⟨value, -, hbuild⟩ := bind_eq_ok.mp hbuild
      cases hbuild
      rintro _ _ _ ⟨⟩
    · obtain ⟨parameter, -, hbuild⟩ := bind_eq_ok.mp hbuild
      obtain ⟨value, -, hbuild⟩ := bind_eq_ok.mp hbuild
      cases hbuild
      rintro _ _ _ ⟨⟩
    · obtain ⟨cookie, -, hbuild⟩ := bind_eq_ok.mp hbuild
      obtain ⟨value, -, hbuild⟩ := bind_eq_ok.mp hbuild
      cases hbuild
      rintro _ _ _ ⟨⟩
    · obtain ⟨instant, -, hbuild⟩ := bind_eq_ok.mp hbuild
      cases hbuild
      rintro _ _ _ ⟨⟩
    · obtain ⟨instant, -, hbuild⟩ := bind_eq_ok.mp hbuild
      cases hbuild
      rintro _ _ _ ⟨⟩
    · obtain ⟨start, -, hbuild⟩ := bind_eq_ok.mp hbuild
      obtain ⟨stop, -, hbuild⟩ := bind_eq_ok.mp hbuild
      split at hbuild
      · cases hbuild
        rintro _ _ _ ⟨⟩
      · cases hbuild
  · cases hbuild

namespace Assembly

variable {room : Regex.Capacity} {specs : List Spec}

theorem steady_of_builds {ps : List Predicate}
    (h : List.Forall₂ (Builds (Predicate.registry room)) specs ps) : ∀ p ∈ ps, p.Steady := by
  intro p hp
  obtain ⟨spec, -, hbuild⟩ := mem_of_forall₂ h.flip p hp
  exact Predicate.steady_of_build hbuild

theorem forall_mem_placeFilters {P : Filter → Prop} {fs : List Filter} (start : Nat)
    (h : ∀ f ∈ fs, ∀ place, P (f.at_ place)) : ∀ f ∈ placeFilters start fs, P f := by
  induction fs generalizing start with
  | nil => exact List.forall_mem_nil _
  | cons f fs ih =>
    rw [List.forall_mem_cons] at h
    exact List.forall_mem_cons.mpr ⟨h.1 start, ih (start + 1) h.2⟩

/-- The filters of a chain are built in, wherever they are placed. -/
theorem Chains.isBuiltIn {start : Nat} {chain : List Filter}
    (h : Chains (Filter.registry room) specs start chain) : ∀ f ∈ chain, f.IsBuiltIn := by
  obtain ⟨built, hbuilt, rfl⟩ := h
  apply forall_mem_placeFilters
  intro f hf place
  obtain ⟨spec, -, hbuild⟩ := mem_of_forall₂ hbuilt.flip f hf
  have hbuiltIn : f.IsBuiltIn := Filter.isBuiltIn_of_build hbuild
  cases f <;> exact hbuiltIn

end Assembly

namespace Handler

/-- The handler of an application breaks down at most at what is mounted. -/
theorem steady_ofApplication {room : Regex.Capacity} {start : Duration} {config : Config}
    {app : Application} (happ : Application.ofConfig (.builtIn room) start config = .ok app)
    {mounts : Mounts} (hmounts : ∀ m ∈ mounts, Receiver.Steady m.2) :
    Steady { ofApplication app with mounts } := by
  obtain ⟨-, hmade, hglobals⟩ := Application.made_of_ofConfig happ
  refine ⟨hmounts, fun route hroute => ?_, fun route hroute f hf => ?_⟩
  · obtain ⟨r, -, hmade⟩ := mem_of_forall₂ hmade.flip route hroute
    exact Assembly.steady_of_builds hmade.predicates
  · obtain ⟨r, -, hmade⟩ := mem_of_forall₂ hmade.flip route hroute
    obtain ⟨first, hchain⟩ := hmade.filters
    apply Filter.IsBuiltIn.steady
    rcases List.mem_append.mp hf with hglobal | hown
    · exact hglobals.isBuiltIn f hglobal
    · exact hchain.isBuiltIn f hown

end Handler

/-! ## Answering -/

/-- A client that never breaks down does not within the scope of an exchange either. -/
theorem Gateway.send_ne_panicked {client : Receiver} (hclient : client.Steady) (x : Exchange)
    (o : Outgoing) (w : World) (finish : Instant) :
    (Gateway.send client x o w).1 ≠ .done finish (.ok .panicked) := by
  intro hsend
  rw [send] at hsend
  dsimp only at hsend
  generalize (if x.scope.isCancelled w.now then w else w.note .send) = noted at hsend
  rcases hrun : x.scope.run noted.now noted.gone none (client o noted.now) with ⟨ended, seen⟩
  rw [hrun] at hsend
  obtain rfl : ended = .done finish (.ok .panicked) := hsend
  obtain ⟨-, hoperation⟩ := Scope.operation_of_run hrun (fun e he => by cases he)
  exact hclient _ _ _ _ (congrArg Prod.fst hoperation)

/-- What a steady client misses is no breakdown. -/
theorem Gateway.missing_ne_panicked {client : Receiver} (hclient : client.Steady) (x : Exchange)
    (o : Outgoing) (w : World) : missing (Gateway.send client x o w).1 ≠ some .panicked := by
  intro hmissing
  rcases hsend : (send client x o w).1 with ⟨finish, e | r | _⟩ | _
  case done.ok.panicked => exact send_ne_panicked hclient x o w finish hsend
  all_goals
    rw [hsend] at hmissing
    cases hmissing

/-- An exchange through steady parts breaks down at most at the breaker. -/
theorem Gateway.Course.ending_ne_panicked {client : Receiver} (hclient : client.Steady)
    {route : Route} {chain : List Filter} (hchain : ∀ f ∈ chain, f.Steady) {w w' : World}
    {x x' : Exchange} {t : Trace} {stop : Option Stop}
    (hcourse : Course client route chain w x t stop w' x') (hstop : stop ≠ some .overflowed) :
    endingOn route stop ≠ .panicked := by
  cases hcourse with
  | @stoppedBefore _ at_ _ _ hran =>
    have hfault : at_.2 ≠ .panicked := hran.fault_ne_panicked_of_pre hchain
    match at_ with
    | (_, .panicked) => exact absurd rfl hfault
    | (_, .error _) | (_, .givenUp) => exact Ending.noConfusion
  | unbuilt | refused => exact Ending.noConfusion
  | unasked | unreported => exact absurd rfl hstop
  | @unanswered o stop w₁ _ _ _ hmissing =>
    rcases missing_cases hmissing with rfl | ⟨e, rfl⟩ | rfl
    · exact Ending.noConfusion
    · exact Ending.noConfusion
    · exact absurd hmissing (missing_ne_panicked hclient x' o w₁)
  | @answered _ _ _ _ stop _ _ _ _ _ _ _ _ hran =>
    match stop with
    | none => exact Ending.noConfusion
    | some (_, .panicked) =>
      have hreverse : ∀ f ∈ chain.reverse, f.Steady := fun f hf => hchain f (List.mem_reverse.mp hf)
      exact absurd rfl (hran.fault_ne_panicked_of_post hreverse)
    | some (_, .error _) | some (_, .givenUp) => exact Ending.noConfusion

namespace Handler

variable {h : Handler} {client : Receiver} {head : Http.RequestHead} {source : Source}
  {remote : Option Net.Endpoint} {w : World}

theorem limitFits_iff {limit : Option Duration} :
    limitFits w limit = true ↔ ∀ d ∈ limit, Instant.fits (w.now + d) = true := by
  cases limit <;> simp [limitFits]

theorem callMounted_ne_panicked {receiver : Receiver} (hreceiver : receiver.Steady) (o : Outgoing)
    (w : World) : (callMounted receiver o w).1 ≠ .panicked := by
  rw [callMounted]
  rcases hended : (receiver o w.now w.gone).1 with ⟨finish, e | r | _⟩ | _
  case done.ok.panicked => exact absurd hended (hreceiver _ _ _ _)
  all_goals
    simp only [hended]
    exact Handled.noConfusion

theorem handledOn_ne_panicked {ending : Ending} (hending : ending ≠ .panicked) (x : Exchange) :
    handledOn ending x ≠ .panicked := by
  cases ending with
  | panicked => exact absurd rfl hending
  | answered | failed | dropped => exact Handled.noConfusion

section Limits

variable (hsteady : h.Steady) (hclient : client.Steady) (hread : limitFits w h.readTimeout = true)
  (hroutes : ∀ route ∈ h.table.routes, limitFits w route.timeout = true)

include hsteady hclient hread hroutes

theorem Steady.dispatch_ne_panicked
    (hfits : ∀ route ∈ h.table.routes, ∀ b ∈ route.breaker, ∀ state,
      Breaker.expiryFits b.policy state (h.dispatch client head source remote w).2.clock.now = true) :
    (h.dispatch client head source remote w).1 ≠ .panicked := by
  rcases exists_exit h client head source remote w with ⟨outcome, hexit⟩ | hbreakdown | hoverflows
  · rw [hexit.dispatch_eq hread hroutes]
    exact Handled.noConfusion
  · cases hbreakdown with
    | @mounted receiver hmounted _ =>
      have hreceiver : receiver.Steady := hsteady.mounts _ (mem_of_lookup hmounted)
      rw [dispatch_mounted hread hmounted]
      exact callMounted_ne_panicked hreceiver _ w
    | @predicate route panic hreaches hpanic =>
      obtain ⟨p, hp, hpanics⟩ := Route.exists_panic_of_accepts hpanic
      exact absurd hpanics (hsteady.predicates route hreaches.mem p hp _ _ _)
    | @exchange route request t stop w' x' hbegins hcourse hbreaks =>
      have hroute : route ∈ h.table.routes := hbegins.selects.mem
      have hstop : some stop ≠ some .overflowed := by
        rintro ⟨⟩
        exact hbreaks
      rw [dispatch_exchange hread (hroutes route hroute) hbegins hcourse]
      exact handledOn_ne_panicked
        (hcourse.ending_ne_panicked hclient (hsteady.filters route hroute) hstop) x'
  · obtain ⟨route, hroute, b, hb, state, hunfit⟩ := hoverflows.exists_unfit hread hroutes
    exact absurd (hfits route hroute b hb state) (Bool.eq_false_iff.mp hunfit)

/-- A request to steady parts does not break down where its limits and the ends of the generations of
the breakers are on the timeline. -/
theorem Steady.handle_ne_panicked {newId : Bytes}
    (hfits : ∀ route ∈ h.table.routes, ∀ b ∈ route.breaker, ∀ state,
      Breaker.expiryFits b.policy state
        (h.handle client newId head source remote w).2.clock.now = true) :
    (h.handle client newId head source remote w).1 ≠ .panicked := by
  rw [handle_eq, Prod.map_snd] at hfits
  rw [handle_eq, Prod.map_fst]
  have hdispatch : (h.dispatch client (identified newId head) source remote w).1 ≠ .panicked :=
    hsteady.dispatch_ne_panicked hclient hread hroutes hfits
  cases hended : (h.dispatch client (identified newId head) source remote w).1 with
  | answered | dropped => exact Handled.noConfusion
  | panicked => exact absurd hended hdispatch

end Limits

/-- A client that replies at once. -/
def promptClient : Receiver := fun _ now _ => (.done now (.ok (.response {})), none)

theorem steady_promptClient : promptClient.Steady := by
  rintro o now limit finish ⟨⟩

end Handler

end Gatehouse
