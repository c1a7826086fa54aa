import Mathlib.Data.List.Nodup
import HttpRouter.Proofs.Pattern.Caching
import HttpRouter.Proofs.Route.Moves
import HttpRouter.Proofs.Router.History

set_option autoImplicit false

namespace HttpRouter

theorem Pattern.made_compile (template : Text) (kind : Kind) (strictSlash : Bool) (c : Compiler)
    (w : Workshop) : (compile template kind strictSlash c w).2.made = w.made := by
  unfold compile
  simp only
  cases plan template kind (strictSlash && kind = .path) with
  | error e => rfl
  | ok made => exact Compiler.made_compile c made.source w

namespace Settings

theorem made_addPattern (s : Settings) (template : Text) (kind : Pattern.Kind) (w : Workshop) :
    (s.addPattern template kind w).2.made = w.made := by
  unfold addPattern
  cases s.fullTemplate template kind with
  | error e => rfl
  | ok full =>
    have made := Pattern.made_compile full kind s.strictSlash s.compiler w
    simp only
    generalize Pattern.compile full kind s.strictSlash s.compiler w = result at made
    obtain ⟨answer, after⟩ := result
    cases answer <;> exact made

theorem Moves.made {C : Matcher → Prop} {K : Pattern.Kind → Prop} {s t : Settings}
    {w w' : Workshop} (h : Moves C K s w t w') : w'.made = w.made := by
  induction h with
  | refl => rfl
  | @more s _ _ w _ _ h _ ih =>
    rw [ih]
    cases h with
    | matcher hm => rfl
    | pattern hk h =>
      rename_i template kind
      have hm := made_addPattern s template kind w
      rwa [h] at hm
    | refused h =>
      rename_i template kind _ _
      have hm := made_addPattern s template kind w
      rwa [h] at hm
    | compile source => exact Compiler.made_compile s.compiler source w

end Settings

namespace Route

theorem within_anything (step : RouteStep) :
    step.Within (fun _ => True) fun _ => True := by
  cases step <;> simp [RouteStep.Within]

theorem made_apply (step : RouteStep) (route : Route) (w : Workshop) :
    (Route.apply step route w).2.made = w.made :=
  (apply_configured (within_anything step) route w).moves.made

theorem made_applyAll (steps : List RouteStep) (route : Route) (w : Workshop) :
    (Route.applyAll steps route w).2.made = w.made :=
  (applyAll_configured (fun step _ => within_anything step) route w).moves.made

def scopes (route : Route) : List ScopeId := route.routers.map (·.scope)

theorem routers_eq (route : Route) :
    route.routers = (route.subrouter?.map Router.routers).getD [] := by
  obtain ⟨info, handler, middleware, subrouter⟩ := route
  cases subrouter <;> rfl

theorem scopes_of_none {route : Route} (h : route.subrouter? = none) : route.scopes = [] := by
  rw [scopes, routers_eq, h]
  rfl

theorem scopes_of_some {route : Route} {child : Router} (h : route.subrouter? = some child) :
    route.scopes = child.routers.map (·.scope) := by
  rw [scopes, routers_eq, h]
  rfl

theorem scopes_congr {route other : Route} (h : other.subrouter? = route.subrouter?) :
    other.scopes = route.scopes := by
  rw [scopes, routers_eq, h, scopes, routers_eq]

end Route

namespace Router

def scopes (router : Router) : List ScopeId := router.routers.map (·.scope)

theorem routersOf_eq (routes : List Route) : routersOf routes = routes.flatMap Route.routers := by
  induction routes with
  | nil => rfl
  | cons route rest ih => rw [routersOf, ih, List.flatMap_cons]

theorem scopes_eq (router : Router) :
    router.scopes = router.scope :: router.routes.flatMap Route.scopes := by
  rw [scopes, routers_eq, routersOf_eq, List.map_cons, List.map_flatMap]
  rfl

/-- What a call makes of the scopes of a tree while numbers from `made` to `made'` are given out:
those after it were there before or are new. -/
structure Renews (made made' : Nat) (before after : List ScopeId) : Prop where
  le : made ≤ made'
  nodup : before.Nodup → (∀ s ∈ before, s < made) → after.Nodup
  known : ∀ s ∈ after, s ∈ before ∨ made ≤ s ∧ s < made'

namespace Renews

variable {made made' : Nat} {before after : List ScopeId}

theorem refl (made : Nat) (scopes : List ScopeId) : Renews made made scopes scopes :=
  ⟨Nat.le_refl made, fun h _ => h, fun _ => .inl⟩

/-- Scopes around those that a call is about are not touched. -/
theorem around (h : Renews made made' before after) (front back : List ScopeId) :
    Renews made made' (front ++ before ++ back) (front ++ after ++ back) := by
  have hk : ∀ s ∈ front ++ after ++ back,
      s ∈ front ++ before ++ back ∨ made ≤ s ∧ s < made' := by
    intro s hs
    simp only [List.mem_append] at hs ⊢
    rcases hs with (hs | hs) | hs
    · exact .inl (.inl (.inl hs))
    · exact (h.known s hs).imp_left fun hb => .inl (.inr hb)
    · exact .inl (.inr hs)
  refine ⟨h.le, fun hn hl => ?_, hk⟩
  simp only [List.nodup_append, List.mem_append] at hn hl ⊢
  obtain ⟨⟨hfront, hbefore, hfb⟩, hback, hrest⟩ := hn
  have hafter := h.nodup hbefore fun s hs => hl s (.inl (.inr hs))
  -- A new scope is different from those around since all of these are lower.
  have apart : ∀ s ∈ after, ∀ other, other < made →
      (∀ b ∈ before, b ≠ other) → s ≠ other := by
    intro s hs other ho hb
    rcases h.known s hs with hs | hs
    · exact hb s hs
    · exact Nat.ne_of_gt (Nat.lt_of_lt_of_le ho hs.1)
  refine ⟨⟨hfront, hafter, fun a ha b hb => ?_⟩, hback, fun a ha b hb => ?_⟩
  · exact (apart b hb a (hl a (.inl (.inl ha))) fun c hc => (hfb a ha c hc).symm).symm
  · rcases ha with ha | ha
    · exact hrest a (.inl ha) b hb
    · exact apart a ha b (hl b (.inr hb)) fun c hc => hrest c (.inr hc) b hb

end Renews

theorem renews_update {place : Nat} {router : Router} {w : Workshop}
    {change : Route → Build (Except Error Unit × Route)}
    (h : ∀ route, Renews w.made (change route w).2.made route.scopes (change route w).1.2.scopes) :
    Renews w.made (router.update place change w).2.made router.scopes
      (router.update place change w).1.2.scopes := by
  cases hp : router.routes[place]? with
  | none =>
    rw [update_of_none hp]
    exact .refl w.made router.scopes
  | some route =>
    rw [update_of_some hp, scopes_eq, scopes_eq]
    obtain ⟨hlt, hroute⟩ := List.getElem?_eq_some_iff.1 hp
    obtain ⟨front, back, hroutes, -, hset⟩ : ∃ front back,
        router.routes = front ++ router.routes[place] :: back ∧ front.length = place ∧
        router.routes.set place (change route w).1.2 = front ++ (change route w).1.2 :: back :=
      List.exists_of_set hlt
    rw [hroute] at hroutes
    have hr := (h route).around (router.scope :: front.flatMap Route.scopes)
      (back.flatMap Route.scopes)
    simp only [hset]
    rw [hroutes]
    simpa using hr

/-- A call renews the scopes of a tree. -/
theorem renews_call (c : Call) (router : Router) (w : Workshop) :
    Renews w.made (router.call c w).2.made router.scopes (router.call c w).1.2.scopes := by
  induction c generalizing router w with
  | configure step =>
    have hs : (router.apply step).scopes = router.scopes := by
      rw [scopes_eq, scopes_eq]
      cases step <;> rfl
    change Renews w.made w.made router.scopes (router.apply step).scopes
    rw [hs]
    exact .refl w.made router.scopes
  | register steps =>
    have hg := (Route.applyAll_grows steps router.draft w).subrouter
    have hm := Route.made_applyAll steps router.draft w
    simp only [call, register]
    generalize Route.applyAll steps router.draft w = result at hg hm
    obtain ⟨⟨answer, route⟩, w'⟩ := result
    cases answer with
    | error e =>
      simp only at hm ⊢
      rw [hm]
      exact .refl w.made router.scopes
    | ok _ =>
      have hs : (router.add route).scopes = router.scopes := by
        rw [scopes_eq, scopes_eq, add, List.flatMap_append, List.flatMap_singleton,
          Route.scopes_of_none hg, List.append_nil]
      simp only at hm ⊢
      rw [hm, hs]
      exact .refl w.made router.scopes
  | route place step =>
    refine renews_update fun route => ?_
    rw [Route.made_apply, Route.scopes_congr (Route.apply_grows step route w).subrouter]
    exact .refl w.made route.scopes
  | delegate place =>
    refine renews_update fun route => ?_
    have hs : (route.openBelow w).1.2.scopes = [w.made] := rfl
    rw [hs]
    refine ⟨Nat.le_succ w.made, fun _ _ => List.pairwise_singleton _ _, fun s hs => .inr ?_⟩
    rw [List.mem_singleton.1 hs]
    exact ⟨Nat.le_refl w.made, Nat.lt_succ_self w.made⟩
  | inside place c ih =>
    refine renews_update fun route => ?_
    cases hs : route.subrouter? with
    | none =>
      rw [Route.callBelow_of_none hs]
      exact .refl w.made route.scopes
    | some child =>
      rw [Route.callBelow_of_some hs, Route.scopes_of_some hs]
      exact ih child w

structure Identified (router : Router) (w : Workshop) : Prop where
  nodup : router.scopes.Nodup
  given : ∀ s ∈ router.scopes, s < w.made

theorem identified_call (c : Call) {router : Router} {w : Workshop} (h : Identified router w) :
    Identified (router.call c w).1.2 (router.call c w).2 := by
  have hr := renews_call c router w
  refine ⟨hr.nodup h.nodup h.given, fun s hs => ?_⟩
  rcases hr.known s hs with hs | hs
  · exact Nat.lt_of_lt_of_le (h.given s hs) hr.le
  · exact hs.2

theorem identified_callAll (calls : List Call) {router : Router} {w : Workshop}
    (h : Identified router w) :
    Identified (callAll calls router w).1.2 (callAll calls router w).2 := by
  induction calls generalizing router w with
  | nil => exact h
  | cons c rest ih => exact ih (identified_call c h)

/-- The routers of a tree that calls have made have different scopes. -/
theorem nodup_scopes (calls : List Call) (w : Workshop) :
    (after calls (new w).1 (new w).2).scopes.Nodup := by
  refine (identified_callAll calls ⟨?_, ?_⟩).nodup
  · exact List.pairwise_singleton _ _
  · intro s hs
    rw [List.mem_singleton.1 hs]
    exact Nat.lt_succ_self w.made

/-- A scope identifies a router. -/
theorem eq_of_scope_eq {router : Router} (h : router.scopes.Nodup) {s t : Router}
    (hs : s ∈ router.routers) (ht : t ∈ router.routers) (he : s.scope = t.scope) : s = t :=
  List.inj_on_of_nodup_map h hs ht he

end Router
end HttpRouter
