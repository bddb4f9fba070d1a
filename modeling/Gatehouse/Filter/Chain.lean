import Gatehouse.Filter.Basic

/-!
# Chains of filters

The hooks before a request run in the order of the chain, those after a response in reverse order.
The first hook that does not pass ends the run, and an error carries the name of the filter.
-/

namespace Gatehouse.Filter

/-- The names of the filters of a chain. -/
def names (chain : List Filter) : List String := chain.map name

/-- Notes that the hook of a filter runs and runs it. The hook itself has no part in what is noted. -/
def runHook (hook : Filter → World → Exchange → HookResult) (event : String → Hook) (f : Filter)
    (w : World) (x : Exchange) : HookResult :=
  let noted := w.note (event f.name)
  let (ended, w, x) := hook f noted x
  (ended, { w with hooks := noted.hooks }, x)

/-- Runs the hooks of some filters in order. -/
def runHooks (hook : Filter → World → Exchange → HookResult) (event : String → Hook)
    (wrap : String → Error → Error) : List Filter → World → Exchange → HookResult
  | [], w, x => finish w x
  | f :: fs, w, x =>
    match runHook hook event f w x with
    | (.passed, w, x) => runHooks hook event wrap fs w x
    | (.failed e, w, x) => (.failed (wrap f.name e), w, x)
    | (.panicked, w, x) => (.panicked, w, x)
    | (.givenUp, w, x) => (.givenUp, w, x)

/-- Runs the hooks before the request. -/
def preAll (chain : List Filter) (w : World) (x : Exchange) : HookResult :=
  runHooks pre .pre .preFilter chain w x

/-- Runs the hooks after the response. -/
def postAll (chain : List Filter) (w : World) (x : Exchange) : HookResult :=
  runHooks post .post .postFilter chain.reverse w x

end Gatehouse.Filter
