import HttpRouter.Proofs.Router.Outline
import HttpRouter.Router.Serve

set_option autoImplicit false

namespace HttpRouter

namespace Outcome

inductive Kind where
  | matched
  | methodMismatch
  /-- A redirect for the slash at the end of the path, which carries the route. -/
  | turned
  /-- A redirect of a path that is not clean. -/
  | cleaned
  | notFound
deriving DecidableEq, Repr

def kind : Outcome → Kind
  | matched _ => .matched
  | methodMismatch _ => .methodMismatch
  | redirect _ (some _) => .turned
  | redirect _ none => .cleaned
  | notFound => .notFound

theorem kind_outline (rename : ScopeId → ScopeId) (outcome : Outcome) :
    (outcome.outline rename).kind = outcome.kind := by
  cases outcome with
  | redirect location found => cases found <;> rfl
  | matched | methodMismatch | notFound => rfl

/-- An outcome without a route is its own outline. -/
theorem eq_of_outline_eq {rename : ScopeId → ScopeId} {outcome other : Outcome}
    (h : outcome.outline rename = other.outline rename)
    (hk : outcome.kind ∈ [.methodMismatch, .notFound, .cleaned]) : outcome = other := by
  have bare : ∀ outcome : Outcome, outcome.kind ∈ [.methodMismatch, .notFound, .cleaned] →
      outcome.outline rename = outcome := by
    intro outcome hk
    cases outcome with
    | methodMismatch | notFound => rfl
    | redirect location found =>
      cases found with
      | none => rfl
      | some found => simp [kind] at hk
    | matched found => simp [kind] at hk
  have ho : other.kind = outcome.kind := by
    rw [← kind_outline rename other, ← h, kind_outline]
  rw [← bare outcome hk, h, bare other (ho ▸ hk)]

end Outcome

namespace Router

/-- The trees differ at most in their middleware, in the fallbacks, in what the handlers do, and in
which routers they are. -/
def Alike (router other : Router) : Prop :=
  router.outline (fun _ => 0) = other.outline fun _ => 0

/-- Misses, wrong methods and paths that are not clean are answered alike by alike trees whose
first routers have the same fallbacks. -/
theorem fallbacks_isolated {router other : Router} (alike : router.Alike other)
    (hn : router.notFound = other.notFound)
    (hm : router.methodNotAllowed = other.methodNotAllowed) (request : Request) :
    (router.resolve request).kind = (other.resolve request).kind ∧
    ((router.resolve request).kind ∈ [.methodMismatch, .notFound, .cleaned] →
      ∀ ctx binder x,
        router.serve ctx request binder x = other.serve ctx request binder x) := by
  have ho := resolve_of_outline_eq alike request
  have hk : (router.resolve request).kind = (other.resolve request).kind := by
    rw [← Outcome.kind_outline fun _ => 0, ho, Outcome.kind_outline]
  refine ⟨hk, fun h ctx binder x => ?_⟩
  have he := Outcome.eq_of_outline_eq ho h
  unfold serve
  rw [← he]
  cases hr : router.resolve request with
  | methodMismatch allowed => simp only [hm]
  | notFound => simp only [hn]
  | redirect location found =>
    cases found with
    | none => rfl
    | some found => simp [hr, Outcome.kind] at h
  | matched found => simp [hr, Outcome.kind] at h

/-- A router over one that has a route for posts only, and only with one scheme.  All of them use
the middleware, and the route and the router below answer with the handler. -/
def guarded (wrap : Middleware) (handler : Handler) (scope : ScopeId) : Router :=
  let strict := (Settings.initial.addMatcher (.schemes ["https".toList])).addMatcher
    (.methods [.post])
  ⟨[.mk (.ofSettings .initial) none [wrap]
    (some ⟨[.mk (.ofSettings strict) (some handler) [wrap] none], [wrap], some handler,
      some handler, .initial, scope + 1⟩)],
    [wrap], none, some .methodNotAllowed, .initial, scope⟩

theorem guarded_isolated :
    let router := guarded id .notFound 0
    let other := guarded (fun _ => .notFound) .methodNotAllowed 2
    let get := Request.get ['/']
    let secure := { get with scheme := some "https".toList }
    let unclean := Request.get "//".toList
    router.Alike other ∧ router.notFound = other.notFound ∧
      router.methodNotAllowed = other.methodNotAllowed ∧
      [get, secure, unclean].map (fun request => (router.resolve request).kind)
        = [.notFound, .methodMismatch, .cleaned] ∧
      (∀ request ∈ [get, secure, unclean], ∀ ctx binder x,
        router.serve ctx request binder x = other.serve ctx request binder x) ∧
      [get, secure, unclean].map (fun request =>
          (other.serve .background request .nothing ⟨.empty, none⟩).2.response.status)
        = [404, 405, 301] := by
  intro router other get secure unclean
  have alike : router.Alike other := rfl
  have kinds : [get, secure, unclean].map (fun request => (router.resolve request).kind)
      = [.notFound, .methodMismatch, .cleaned] := by decide +kernel
  refine ⟨alike, rfl, rfl, kinds, fun request hr => ?_, by decide +kernel⟩
  refine (fallbacks_isolated alike rfl rfl request).2 ?_
  have hk := List.mem_map_of_mem (f := fun request => (router.resolve request).kind) hr
  rw [kinds] at hk
  simp only [List.mem_cons, List.not_mem_nil, or_false] at hk ⊢
  rcases hk with hk | hk | hk
  · exact .inr (.inl hk)
  · exact .inl hk
  · exact .inr (.inr hk)

end Router
end HttpRouter
