import HttpRouter.Router.Cors
import HttpRouter.Proofs.Router.Composition
import HttpRouter.Proofs.Router.Scopes

set_option autoImplicit false

namespace HttpRouter

namespace Cors

structure Announced (methods : List Method) (before after : Response) : Prop where
  status : after.status = before.status
  puts : Response.Puts "Access-Control-Allow-Methods".toList
    (List.intercalate [','] (methods.map Method.name)) before after

theorem announced_setHeader (methods : List Method) (response : Response) :
    Announced methods response (response.setHeader headerName (announcement methods)) := by
  refine ⟨rfl, ?_⟩
  rw [announcement, Text.join_eq_intercalate]
  exact response.puts_setHeader headerName _

end Cors

namespace Found

theorem scope?_context (found : Found) (id : ScopeId) :
    found.context.scope? id = (found.scopes.find? (·.scope == id)).map
      fun router => ⟨router.scope, router.allowedMethods⟩ := by
  rw [context, Context.scope?, List.find?_map]
  rfl

theorem mem_around (found : Found) (wrap : Middleware) :
    wrap ∈ found.around ↔
      (∃ router ∈ found.scopes, wrap ∈ router.middleware) ∨ wrap ∈ found.route.middleware := by
  simp [around]

end Found

namespace Router

theorem mem_routers_self (router : Router) : router ∈ router.routers := by
  rw [routers_eq]
  exact List.mem_cons_self

theorem mem_routers_below {router child other : Router} {route : Route} (h : route ∈ router.routes)
    (below : route.subrouter? = some child) (ho : other ∈ child.routers) :
    other ∈ router.routers := by
  rw [routers_eq, routersOf_eq]
  refine List.mem_cons_of_mem router (List.mem_flatMap.2 ⟨route, h, ?_⟩)
  rwa [Route.routers_eq, below]

theorem Descent.mem_routers {router : Router} {path : List Router} {route : Route}
    (h : router.Descent path route) : ∀ other ∈ path, other ∈ router.routers := by
  induction h with
  | holds => exact fun other ho => List.mem_singleton.1 ho ▸ mem_routers_self _
  | delegates h below _ ih =>
    intro other ho
    rcases List.mem_cons.1 ho with rfl | ho
    · exact mem_routers_self other
    · exact mem_routers_below h below (ih other ho)

inductive Answers (router : Router) (request : Request) (found : Found) : Handler → Prop
  | matched (h : router.resolve request = .matched found) :
      Answers router request found found.handler
  | redirected {location : Text} (h : router.resolve request = .redirect location (some found)) :
      Answers router request found (Handler.redirect location)

section
variable {router s : Router} {request : Request} {found : Found} {answer : Handler}

theorem Answers.descent (h : router.Answers request found answer) :
    router.Descent found.scopes.reverse found.route := by
  cases h with
  | matched h => exact (descent_of_resolve (.inl h)).2
  | redirected h => exact (descent_of_resolve (.inr ⟨_, h⟩)).2

theorem Answers.serve (h : router.Answers request found answer) (ctx : Context) (binder : Binder)
    (x : Exchange) : router.serve ctx request binder x
      = Middleware.composed found.around answer found.context request binder x := by
  cases h with
  | matched h => exact serve_matched h ctx binder x
  | redirected h => exact serve_redirected h ctx binder x

/-- Among the routers on the way, the one with the scope of `s` can only be `s`. -/
theorem Answers.eq_of_scope_eq (h : router.Answers request found answer)
    (distinct : router.scopes.Nodup) (hs : s ∈ router.routers) :
    ∀ other ∈ found.scopes, other.scope = s.scope → other = s := fun other ho =>
  Router.eq_of_scope_eq distinct (h.descent.mem_routers other (List.mem_reverse.2 ho)) hs

theorem Answers.scope?_of_mem (h : router.Answers request found answer)
    (distinct : router.scopes.Nodup) (hs : s ∈ router.routers) (hd : s ∈ found.scopes) :
    found.context.scope? s.scope = some ⟨s.scope, s.allowedMethods⟩ := by
  have hf : (found.scopes.find? (·.scope == s.scope)).isSome :=
    List.find?_isSome.2 ⟨s, hd, beq_self_eq_true _⟩
  obtain ⟨other, ho⟩ := Option.isSome_iff_exists.1 hf
  have hk := List.find?_some ho
  have he := h.eq_of_scope_eq distinct hs other (List.mem_of_find?_eq_some ho) (beq_iff_eq.1 hk)
  rw [found.scope?_context, ho, he]
  rfl

theorem Answers.scope?_of_not_mem (h : router.Answers request found answer)
    (distinct : router.scopes.Nodup) (hs : s ∈ router.routers) (hd : s ∉ found.scopes) :
    found.context.scope? s.scope = none := by
  have hf : found.scopes.find? (·.scope == s.scope) = none := by
    refine List.find?_eq_none.2 fun other ho he => hd ?_
    rwa [← h.eq_of_scope_eq distinct hs other ho (beq_iff_eq.1 he)]
  rw [found.scope?_context, hf]
  rfl

theorem Answers.announce_of_mem (h : router.Answers request found answer)
    (distinct : router.scopes.Nodup) (hs : s ∈ router.routers) (hd : s ∈ found.scopes)
    {seen : Request} {methods : List Method} (ha : s.allowedMethods seen = .ok methods)
    (ho : .options ∈ methods) (response : Response) :
    Cors.announce s.scope found.context seen response
      = response.setHeader Cors.headerName (Cors.announcement methods) := by
  have hc := h.scope?_of_mem distinct hs hd
  simp only [Cors.announce, hc, ha]
  exact if_pos (List.contains_iff_mem.2 ho)

theorem Answers.announce_eq_self (h : router.Answers request found answer)
    (distinct : router.scopes.Nodup) (hs : s ∈ router.routers) {seen : Request}
    (silent : ¬∃ methods, s ∈ found.scopes ∧ s.allowedMethods seen = .ok methods ∧
      .options ∈ methods) (response : Response) :
    Cors.announce s.scope found.context seen response = response := by
  by_cases hd : s ∈ found.scopes
  · have hc := h.scope?_of_mem distinct hs hd
    cases ha : s.allowedMethods seen with
    | error e => simp only [Cors.announce, hc, ha]
    | ok methods =>
      simp only [Cors.announce, hc, ha]
      exact if_neg fun ho => silent ⟨methods, hd, ha, List.contains_iff_mem.1 ho⟩
  · simp only [Cors.announce, h.scope?_of_not_mem distinct hs hd]

end

/-- Scopes tell the routers of a tree apart.  Middleware that announces the methods of the router `s`
is around the answer exactly if it is registered on one of the routers on the way to the route that
was found, or on this route: that of a route that only delegates is not run.  It calls what it is
around once, with the context, the request and the binder that it was given, and gives back the
result.  The response announces the methods if `s` is on the way and accepts OPTIONS among them, and
otherwise it is left as it was. -/
theorem announcing_effect :
    (∀ calls w, (after calls (new w).1 (new w).2).scopes.Nodup) ∧
    ∀ router : Router, router.scopes.Nodup → ∀ s ∈ router.routers,
      ∀ request found answer, router.Answers request found answer →
      router.Descent found.scopes.reverse found.route ∧
      (Cors.middleware s.scope ∈ found.around ↔
        (∃ other ∈ found.scopes, Cors.middleware s.scope ∈ other.middleware) ∨
          Cors.middleware s.scope ∈ found.route.middleware) ∧
      (∀ outer inner, found.around = outer ++ Cors.middleware s.scope :: inner →
        ∀ ctx binder x, router.serve ctx request binder x
          = Middleware.composed outer
              (Cors.middleware s.scope (Middleware.composed inner answer))
              found.context request binder x) ∧
      ∀ ctx seen x, ∃ response,
        (∀ next binder, Cors.middleware s.scope next ctx seen binder x
          = next ctx seen binder { x with response }) ∧
        (ctx = found.context →
          (∀ methods, s ∈ found.scopes → s.allowedMethods seen = .ok methods →
            .options ∈ methods → Cors.Announced methods x.response response) ∧
          ((¬∃ methods, s ∈ found.scopes ∧ s.allowedMethods seen = .ok methods ∧
            .options ∈ methods) → response = x.response)) := by
  refine ⟨nodup_scopes, fun router distinct s hs request found answer h => ?_⟩
  refine ⟨h.descent, found.mem_around _, fun outer inner around ctx binder x => ?_,
    fun ctx seen x => ?_⟩
  · rw [h.serve, around, Middleware.composed_append]
    rfl
  · refine ⟨Cors.announce s.scope ctx seen x.response, fun next binder => rfl, ?_⟩
    rintro rfl
    refine ⟨fun methods hd ha ho => ?_, fun silent => h.announce_eq_self distinct hs silent _⟩
    rw [h.announce_of_mem distinct hs hd ha ho]
    exact Cors.announced_setHeader methods x.response

def forked : Router :=
  after [
    .configure (.use (Cors.middleware 1)), .configure (.use (Cors.middleware 2)),
    .register [], .delegate 0,
    .inside 0 (.register [.methods [.get, .options], .handler .notFound]),
    .register [], .delegate 1,
    .inside 1 (.register [.methods [.post, .options], .handler .notFound])]
    (new .initial).1 (new .initial).2

theorem forked_announces :
    let request := Request.get ['/']
    forked.scopes.Nodup ∧ ∃ found, forked.resolve request = .matched found ∧
      (∀ ctx binder x, forked.serve ctx request binder x
        = Cors.middleware 1 (Cors.middleware 2 .notFound) found.context request binder x) ∧
      (∀ x, ∃ response,
        (∀ next binder, Cors.middleware 1 next found.context request binder x
          = next found.context request binder { x with response }) ∧
        Cors.Announced [.get, .options] x.response response ∧
        response.header? "access-control-allow-methods".toList = some "GET,OPTIONS".toList ∧
        response.headers.under "access-control-allow-methods".toList
          = [("Access-Control-Allow-Methods".toList, "GET,OPTIONS".toList)]) ∧
      ∀ next binder x, Cors.middleware 2 next found.context request binder x
        = next found.context request binder x := by
  intro request
  obtain ⟨root, first, second, found, hrouters, hm, haround, hpassed, hallowed, hscopes, hfirst,
      hsecond⟩ : ∃ root first second found, forked.routers = [root, first, second] ∧
        forked.resolve request = .matched found ∧
        found.around = [Cors.middleware first.scope, Cors.middleware second.scope] ∧
        found.scopes = [first, root] ∧ first.allowedMethods request = .ok [.get, .options] ∧
        found.scopes.map (·.scope) = [1, 0] ∧ first.scope = 1 ∧ second.scope = 2 :=
    ⟨_, _, _, _, rfl, rfl, rfl, rfl, rfl, rfl, rfl, rfl⟩
  obtain ⟨nodup, effect⟩ := announcing_effect
  have distinct : forked.scopes.Nodup := nodup _ _
  obtain ⟨-, -, served, announced⟩ :=
    effect forked distinct first (by simp [hrouters]) request found _ (.matched hm)
  obtain ⟨-, -, -, untouched⟩ :=
    effect forked distinct second (by simp [hrouters]) request found _ (.matched hm)
  have hhandler : found.handler = .notFound := by
    cases hm
    rfl
  refine ⟨distinct, found, hm, fun ctx binder x => ?_, fun x => ?_, fun next binder x => ?_⟩
  · rw [served [] _ haround, hfirst, hsecond, hhandler]
    rfl
  · obtain ⟨response, hnext, hannounced⟩ := announced found.context request x
    rw [hfirst] at hnext
    have ha := (hannounced rfl).1 _ (by simp [hpassed]) hallowed (by decide)
    refine ⟨response, hnext, ha, ?_, ?_⟩
    · rw [ha.puts.looked, if_pos (by decide)]
      decide
    · exact (Headers.under_congr _ (by decide)).trans ha.puts.single
  · obtain ⟨response, hnext, hannounced⟩ := untouched found.context request x
    have hn : second ∉ found.scopes := by
      intro hs
      have hk : 2 ∈ found.scopes.map (·.scope) := List.mem_map.2 ⟨second, hs, hsecond⟩
      rw [hscopes] at hk
      exact absurd hk (by decide)
    have hx : response = x.response := (hannounced rfl).2 fun ⟨_, hs, _⟩ => hn hs
    rw [hsecond] at hnext
    rw [hnext, hx]

end Router
end HttpRouter
