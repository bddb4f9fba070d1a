import Gatehouse.Proofs.Body.Content
import Gatehouse.Proofs.Exchange.Scope
import Gatehouse.Proofs.Filter.RequestHeader

/-!
# Responses on their way back

Filters of the gateway edit the headers of a response and capture its body, and change nothing else of
it. `Response.ProcessedBy` is what a chain makes of a response, up to its body, whose content it keeps.
None of them ever breaks down.
-/

namespace Gatehouse

open Http (Headers HeaderName)

namespace Filter

/-- What a filter of the gateway makes of the headers of a response. -/
def responseHeaders (f : Filter) (hs : Headers) : Headers :=
  match f with
  | .header .response name edit => edit.apply name hs
  | _ => hs

end Filter

/-- A response is another one behind some filters: its headers are edited by one filter after the other,
its status and the content of its body are the same. -/
structure Response.ProcessedBy (fs : List Filter) (r r' : Response) : Prop where
  status : r'.status = r.status
  headers : r'.headers = fs.foldl (fun hs f => f.responseHeaders hs) r.headers
  content : r'.body.content = r.body.content

variable {fs ran : List Filter} {f : Filter} {w w' w₁ : World} {x x' x₁ : Exchange}
  {r r₁ r₂ : Response}

namespace Response

theorem ProcessedBy.refl (r : Response) : r.ProcessedBy [] r := ⟨rfl, rfl, rfl⟩

theorem ProcessedBy.cons (h : r.ProcessedBy [f] r₁) (hrest : r₁.ProcessedBy fs r₂) :
    r.ProcessedBy (f :: fs) r₂ where
  status := hrest.status.trans h.status
  headers := by rw [hrest.headers, h.headers, List.foldl_cons, List.foldl_cons, List.foldl_nil]
  content := hrest.content.trans h.content

end Response

namespace Filter

/-- A logger that succeeds keeps a response and the content of its body. -/
theorem processedBy_logResponse {level : Level} {maxBody : Nat} (hx : x.response = some r)
    (h : logResponse w x level maxBody = (.passed, w', x')) :
    ∃ r', x'.response = some r' ∧ r.ProcessedBy [.logger level maxBody] r' := by
  unfold logResponse at h
  split at h
  · cases h
    exact ⟨r, hx, rfl, rfl, rfl⟩
  · simp only [hx] at h
    -- the body is captured within the scope of the exchange, and then logged
    match hrun : x.scope.run w.now w.gone r.body (r.body.capture w.now) with
    | (.givenUp, body) =>
      rw [hrun] at h
      cases h
    | (.done finish (.error e), body) =>
      rw [hrun] at h
      cases h
    | (.done finish (.ok ()), body) =>
      rw [hrun] at h
      cases h
      obtain ⟨-, hcapture⟩ := Scope.operation_of_run hrun nofun
      exact ⟨_, rfl, rfl, rfl, Body.content_of_capture hcapture⟩

/-- What the hook after the response makes of it. -/
theorem processedBy_post (hbuiltIn : f.IsBuiltIn) (hx : x.response = some r)
    (h : f.post w x = (.passed, w', x')) :
    ∃ r', x'.response = some r' ∧ r.ProcessedBy [f] r' := by
  cases f with
  | header side name edit =>
    cases side with
    | request =>
      cases h
      exact ⟨r, hx, rfl, rfl, rfl⟩
    | response =>
      cases h
      simp only [hx, Option.map_some]
      exact ⟨_, rfl, rfl, rfl, rfl⟩
  | pathEdit pattern replacement =>
    cases h
    exact ⟨r, hx, rfl, rfl, rfl⟩
  | logger level maxBody => exact processedBy_logResponse hx h
  | rateLimit place rate burst key =>
    cases h
    exact ⟨r, hx, rfl, rfl, rfl⟩
  | custom label before after => exact hbuiltIn.elim

/-- What hooks after the response make of it, one after the other. -/
theorem Ran.processedBy (h : Ran post .post fs w x ran none w₁ x₁) (hbuiltIn : ∀ f ∈ fs, f.IsBuiltIn)
    (hx : x.response = some r) : ∃ r', x₁.response = some r' ∧ r.ProcessedBy fs r' := by
  induction fs generalizing w x r ran with
  | nil =>
    cases h
    exact ⟨r, hx, .refl r⟩
  | cons f fs ih =>
    cases h with
    | next hf hrest =>
      obtain ⟨v, hpost, -⟩ := exists_of_runHook hf
      obtain ⟨r₁, hx₁, hfirst⟩ := processedBy_post (hbuiltIn f List.mem_cons_self) hx hpost
      obtain ⟨r₂, hx₂, hlater⟩ :=
        ih hrest (fun g hg => hbuiltIn g (List.mem_cons_of_mem _ hg)) hx₁
      exact ⟨r₂, hx₂, hfirst.cons hlater⟩

/-- The hook after the response leaves the request alone. -/
theorem request_post (hbuiltIn : f.IsBuiltIn) (w : World) (x : Exchange) :
    (f.post w x).2.2.request = x.request := by
  cases f with
  | header side name edit => cases side <;> rfl
  | pathEdit => rfl
  | logger level maxBody =>
    simp only [post, logResponse]
    split
    · rfl
    · split
      · rfl
      · split <;> rfl
  | rateLimit => rfl
  | custom => exact hbuiltIn.elim

/-! ## Breaking down -/

/-- A filter whose hooks never break down. -/
def Steady (f : Filter) : Prop :=
  ∀ w x, (f.pre w x).1 ≠ .panicked ∧ (f.post w x).1 ≠ .panicked

theorem logRequest_ne_panicked (w : World) (x : Exchange) (level : Level) (maxBody : Nat) :
    (logRequest w x level maxBody).1 ≠ .panicked := by
  rw [logRequest]
  split
  · exact HookEnd.noConfusion
  · dsimp only
    split <;> exact HookEnd.noConfusion

theorem logResponse_ne_panicked (w : World) (x : Exchange) (level : Level) (maxBody : Nat) :
    (logResponse w x level maxBody).1 ≠ .panicked := by
  rw [logResponse]
  split
  · exact HookEnd.noConfusion
  · split
    · exact HookEnd.noConfusion
    · dsimp only
      split <;> exact HookEnd.noConfusion

theorem IsBuiltIn.steady (h : f.IsBuiltIn) : f.Steady := by
  intro w x
  cases f with
  | header side name edit => cases side <;> exact ⟨HookEnd.noConfusion, HookEnd.noConfusion⟩
  | pathEdit => exact ⟨HookEnd.noConfusion, HookEnd.noConfusion⟩
  | logger level maxBody =>
    exact ⟨logRequest_ne_panicked w x level maxBody, logResponse_ne_panicked w x level maxBody⟩
  | rateLimit =>
    simp only [pre, post]
    split <;> exact ⟨HookEnd.noConfusion, HookEnd.noConfusion⟩
  | custom => exact h.elim

/-- Hooks that never break down do not stop a run by breaking down. -/
theorem Ran.fault_ne_panicked_of_pre {fault : Fault}
    (h : Ran pre .pre fs w x ran (some (f, fault)) w₁ x₁) (hsteady : ∀ g ∈ fs, g.Steady) :
    fault ≠ .panicked := by
  rintro rfl
  obtain ⟨hmem, v, y, v₁, hpre⟩ := h.exists_stopped
  exact (hsteady f hmem v y).1 (congrArg Prod.fst hpre)

theorem Ran.fault_ne_panicked_of_post {fault : Fault}
    (h : Ran post .post fs w x ran (some (f, fault)) w₁ x₁) (hsteady : ∀ g ∈ fs, g.Steady) :
    fault ≠ .panicked := by
  rintro rfl
  obtain ⟨hmem, v, y, v₁, hpost⟩ := h.exists_stopped
  exact (hsteady f hmem v y).2 (congrArg Prod.fst hpost)

end Filter

end Gatehouse
