import HttpRouter.Proofs.Route.Ownership
import HttpRouter.Proofs.Router.FirstMatch
import HttpRouter.Proofs.Router.History

set_option autoImplicit false

namespace HttpRouter

theorem owned_invariant : Invariant Settings.Owned fun _ route => route.settings.Owned where
  initial := .initial
  configured router step h := by
    cases step with
    | strictSlash | skipClean | compiler =>
      exact ⟨h.labelled, h.host, h.path, h.query, h.sorted, h.paths, h.queries, h.owns⟩
    | notFound | methodNotAllowed | use => exact h
  draft _ h := h
  kept _ _ _ _ h := h
  applied _ _ step w _ h := Route.apply_owned step h w
  delegating _ _ _ _ h := h
  opened _ _ _ h := h

/-- What holds of the routes of all routers in a tree holds of its leaves. -/
theorem Router.leaf_of_throughout {P : Route → Prop} {router : Router}
    (h : Router.Throughout (fun router => ∀ route ∈ router.routes, P route) router) :
    ∀ leaf ∈ Router.leaves router, P leaf.route := by
  induction h with
  | @intro router here deeper ih =>
    intro leaf hl
    obtain ⟨route, hr, inner, hi, rfl⟩ := (Router.mem_leaves router leaf).1 hl
    rcases (Route.mem_leaves route inner).1 hi with ⟨-, rfl⟩ | ⟨child, hc, below, hb, rfl⟩
    · exact here route hr
    · exact ih route hr child hc below hb

theorem Router.Throughout.imp {P Q : Router → Prop} {router : Router}
    (h : Router.Throughout P router) (hpq : ∀ router, P router → Q router) :
    Router.Throughout Q router := by
  induction h with
  | intro here deeper ih => exact .intro (hpq _ here) ih

namespace Leaf

theorem get?_capture {leaf : Leaf} {request : Request} {name value : Text}
    (h : (leaf.route.info.capture request).get? name = some value) :
    (leaf.capture request).get? name = some value := by
  unfold capture
  generalize leaf.route.info.capture request = vars at h
  induction leaf.above generalizing vars with
  | nil => exact h
  | cons info rest ih => exact ih _ (Vars.get?_fillFrom h)

end Leaf

namespace Router

theorem leaf_of_scan {router : Router} {request : Request} {found : Found}
    (h : router.scan request = .matched found ∨
      ∃ location, router.scan request = .redirect location (some found)) :
    ∃ leaf ∈ Router.leaves router, leaf.accepts request = true ∧ found.route = leaf.route ∧
      found.vars = leaf.capture request := by
  obtain ⟨leaf, hl, ha, -, hf⟩ := leaf_of_found h
  exact ⟨leaf, hl, ha, congrArg Found.route hf, congrArg Found.vars hf⟩

theorem scan_of_resolve {router : Router} {request : Request} {found : Found}
    (h : router.resolve request = .matched found ∨
      ∃ location, router.resolve request = .redirect location (some found)) :
    router.scan request = .matched found ∨
      ∃ location, router.scan request = .redirect location (some found) := by
  unfold resolve at h
  simp only at h
  split at h
  · rcases h with h | ⟨location, h⟩
    · cases h
    · cases h
  · exact h

/-- The variables of an answer have the values that the current templates of its route captured
from the request. -/
theorem own_templates_win {router : Router} (hr : router.Reachable) {request : Request}
    {found : Found} (h : router.resolve request = .matched found ∨
      ∃ location, router.resolve request = .redirect location (some found)) :
    ∀ p text, (p, text) ∈ found.route.settings.readings request →
      ∃ bindings, p.bindings? text = some bindings ∧
        ∀ name value, (name, value) ∈ bindings → found.vars.get? name = some value := by
  obtain ⟨leaf, hl, ha, hroute, hvars⟩ := leaf_of_scan (scan_of_resolve h)
  have howned : leaf.route.settings.Owned :=
    leaf_of_throughout ((owned_invariant.reachable hr).imp fun _ h => h.2) leaf hl
  have hadmits : leaf.route.info.admits request = true := by
    simp only [Leaf.accepts, Bool.and_eq_true] at ha
    exact ha.1.1
  intro p text hp
  rw [hroute] at hp
  obtain ⟨bindings, hb, hv⟩ := howned.judge (RouteInfo.judge_of_admits hadmits) hp
  rw [hvars]
  exact ⟨bindings, hb, fun name value hm => Leaf.get?_capture (hv name value hm)⟩

def greedyPrefix : Router :=
  (callAll [.register [.pathStart "/{a:.+}".toList], .delegate 0,
    .inside 0 (.register [.path "/y".toList, .handler .notFound])]
    (.ofSettings .initial 0) .initial).1.2

def ownBindings (request : Request) : Outcome → List (Option (List (Text × Text)))
  | .matched found => (found.route.settings.readings request).map fun (p, text) => p.bindings? text
  | _ => []

theorem greedyPrefix_loses :
    let request := Request.get "/x/y".toList
    greedyPrefix.Reachable ∧ ∃ found, greedyPrefix.resolve request = .matched found ∧
      found.vars.get? "a".toList = some "x".toList := by
  intro request
  have hr : greedyPrefix.Reachable := ⟨0, _, .initial, rfl⟩
  have hown : ownBindings request (greedyPrefix.resolve request)
      = [some [("a".toList, "x".toList)]] := by decide +kernel
  cases h : greedyPrefix.resolve request with
  | matched found =>
    rw [h, ownBindings, List.map_eq_singleton_iff] at hown
    obtain ⟨⟨p, text⟩, hp, hb⟩ := hown
    obtain ⟨bindings, hb', hv⟩ := own_templates_win hr (.inl h) p text (by simp [hp])
    obtain rfl := Option.some.inj (hb.symm.trans hb')
    exact ⟨hr, found, rfl, hv _ _ List.mem_cons_self⟩
  | methodMismatch => rw [h] at hown; cases hown
  | redirect => rw [h] at hown; cases hown
  | notFound => rw [h] at hown; cases hown

end Router
end HttpRouter
