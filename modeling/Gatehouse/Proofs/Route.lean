import Gatehouse.Proofs.Except
import Gatehouse.Route

/-!
# Which route a request takes

A request takes the first route that accepts it. Routes are tried in order, and the predicates of a
route in order, and where a predicate panics no other is tried. So the routes in front of the one that
is taken, or that panics, have all refused the request.
-/

namespace Gatehouse

variable {clock : Clock} {r : Http.RequestHead} {route : Route} {routes earlier later : List Route}

namespace Route

/-- A route accepts the requests that all its predicates pass. -/
theorem accepts_eq_true_iff :
    route.accepts clock r = .ok true ↔ ∀ p ∈ route.predicates, p.test clock r = .ok true := by
  rw [accepts]
  induction route.predicates with
  | nil => exact ⟨fun _ => nofun, fun _ => rfl⟩
  | cons p ps ih =>
    rw [List.allM, List.forall_mem_cons, ← ih, bind_eq_ok]
    constructor
    · rintro ⟨passed, hp, hrest⟩
      cases passed with
      | true => exact ⟨hp, hrest⟩
      | false => cases hrest
    · rintro ⟨hp, hrest⟩
      exact ⟨true, hp, hrest⟩

/-- A route panics only where one of its predicates does. -/
theorem exists_panic_of_accepts {panic : Panic} (h : route.accepts clock r = .error panic) :
    ∃ p ∈ route.predicates, p.test clock r = .error panic := by
  rw [accepts] at h
  generalize route.predicates = predicates at h ⊢
  induction predicates with
  | nil => cases h
  | cons p ps ih =>
    rw [List.allM, bind_eq_error] at h
    rcases h with hp | ⟨passed, -, hrest⟩
    · exact ⟨p, List.mem_cons_self, hp⟩
    · cases passed with
      | true =>
        obtain ⟨q, hq, hpanic⟩ := ih hrest
        exact ⟨q, List.mem_cons_of_mem _ hq, hpanic⟩
      | false => cases hrest

end Route

namespace RoutingTable

/-- Routes that refuse a request have no part in which route it takes. -/
theorem find?_append (hearlier : ∀ other ∈ earlier, other.accepts clock r = .ok false) :
    find? ⟨earlier ++ later⟩ clock r = find? ⟨later⟩ clock r := by
  induction earlier with
  | nil => rfl
  | cons other earlier ih =>
    rw [List.forall_mem_cons] at hearlier
    rw [← ih hearlier.2]
    simp only [find?, List.cons_append, List.findM?, hearlier.1]
    rfl

/-- A request takes the route that accepts it behind routes that refuse it. -/
theorem find?_of_accepts (hearlier : ∀ other ∈ earlier, other.accepts clock r = .ok false)
    (haccepts : route.accepts clock r = .ok true) :
    find? ⟨earlier ++ route :: later⟩ clock r = .ok (some route) := by
  rw [find?_append hearlier]
  simp only [find?, List.findM?, haccepts]
  rfl

theorem find?_of_refused (hrefuse : ∀ route ∈ routes, route.accepts clock r = .ok false) :
    find? ⟨routes⟩ clock r = .ok none := by
  rw [← List.append_nil routes, find?_append hrefuse]
  rfl

/-- What panics behind routes that refuse a request panics for all. -/
theorem find?_of_panic {panic : Panic}
    (hearlier : ∀ other ∈ earlier, other.accepts clock r = .ok false)
    (hpanic : route.accepts clock r = .error panic) :
    find? ⟨earlier ++ route :: later⟩ clock r = .error panic := by
  rw [find?_append hearlier]
  simp only [find?, List.findM?, hpanic]
  rfl

/-- Either all routes refuse a request, or there is a first one that does not. -/
theorem refused_or_exists_first (routes : List Route) (clock : Clock) (r : Http.RequestHead) :
    (∀ route ∈ routes, route.accepts clock r = .ok false) ∨
      ∃ earlier route later, routes = earlier ++ route :: later ∧
        (∀ other ∈ earlier, other.accepts clock r = .ok false) ∧
        (route.accepts clock r = .ok true ∨ ∃ panic, route.accepts clock r = .error panic) := by
  induction routes with
  | nil => exact .inl (List.forall_mem_nil _)
  | cons route routes ih =>
    rcases haccepts : route.accepts clock r with panic | _ | _
    · exact .inr ⟨[], route, routes, rfl, List.forall_mem_nil _, .inr ⟨panic, haccepts⟩⟩
    · -- the first one that does not refuse is among the others
      rcases ih with hrefuse | ⟨earlier, other, later, rfl, hearlier, hfirst⟩
      · exact .inl (List.forall_mem_cons.mpr ⟨haccepts, hrefuse⟩)
      · exact .inr ⟨route :: earlier, other, later, rfl,
          List.forall_mem_cons.mpr ⟨haccepts, hearlier⟩, hfirst⟩
    · exact .inr ⟨[], route, routes, rfl, List.forall_mem_nil _, .inl haccepts⟩

/-- The route that a request takes accepts it. -/
theorem accepts_of_find? {table : RoutingTable} (h : table.find? clock r = .ok (some route)) :
    route.accepts clock r = .ok true := by
  rcases refused_or_exists_first table.routes clock r with
    hrefuse | ⟨earlier, first, later, hroutes, hearlier, haccepts | ⟨panic, hpanic⟩⟩
  · cases (find?_of_refused hrefuse).symm.trans h
  · have hfind : table.find? clock r = .ok (some first) := by
      rw [find?, hroutes]
      exact find?_of_accepts hearlier haccepts
    cases hfind.symm.trans h
    exact haccepts
  · have hfind : table.find? clock r = .error panic := by
      rw [find?, hroutes]
      exact find?_of_panic hearlier hpanic
    cases hfind.symm.trans h

end RoutingTable

end Gatehouse
