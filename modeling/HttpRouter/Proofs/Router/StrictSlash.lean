import HttpRouter.Proofs.Pattern.Slash
import HttpRouter.Proofs.Route.Moves
import HttpRouter.Proofs.Route.Prefixes
import HttpRouter.Proofs.Router.Redirects

set_option autoImplicit false

/-!
# Strict slashes

A strict route is made from one path template and steps that do not read the path.  If the other
matchers accept a request, the route matches it exactly if the template stands for its path, and
redirects it exactly if the template stands for the path with its slash turned, unless two slashes
end the path.  On the other side the request is matched with the same variables.
-/
namespace HttpRouter

def Matcher.IgnoresPath : Matcher → Prop
  | path _ | pathStart _ => False
  | custom holds => ∀ (request : Request) (path : Text), holds { request with path } = holds request
  | schemes _ | host _ | headers _ | headerExpressions _ | query _ | methods _ => True

theorem Matcher.evaluate_of_ignoresPath {m : Matcher} (h : m.IgnoresPath) (request : Request)
    (path : Text) (vars : Vars) :
    m.evaluate { request with path } vars = m.evaluate request vars := by
  cases m with
  | path p => exact h.elim
  | pathStart p => exact h.elim
  | custom holds => exact congrArg (ofBool vars) (h request path)
  | schemes | host | headers | headerExpressions | query | methods => rfl

def RouteStep.IgnoresPath : RouteStep → Prop
  | path _ | pathStart _ => False
  | custom holds => ∀ (request : Request) (path : Text), holds { request with path } = holds request
  | handler _ | name _ | buildOnly | host _ | queries _ | headers _ | headerExpressions _
  | methods _ | schemes _ | metadata _ _ | use _ => True

def Pattern.Kind.IgnoresPath (kind : Pattern.Kind) : Prop := kind = .host ∨ kind = .query

theorem RouteStep.within_of_ignoresPath {step : RouteStep} (h : step.IgnoresPath) :
    step.Within Matcher.IgnoresPath Pattern.Kind.IgnoresPath := by
  cases step with
  | path template => exact h.elim
  | pathStart template => exact h.elim
  | host template => exact .inl rfl
  | queries pairs => exact .inr rfl
  | custom holds => exact h
  | headers | headerExpressions => exact fun _ => trivial
  | methods | schemes | handler | name | buildOnly | metadata | use => trivial

namespace Settings

def root (strict skip : Bool) (compiler : Compiler) : Settings :=
  { initial with strictSlash := strict, skipClean := skip, compiler }

structure Beside (s t : Settings) : Prop where
  path : t.path = s.path
  kept : s.matchers ⊆ t.matchers
  added : ∀ m ∈ t.matchers, m ∈ s.matchers ∨ m.IgnoresPath

namespace Beside

theorem refl (s : Settings) : Beside s s := ⟨rfl, List.Subset.refl _, fun _ => .inl⟩

theorem trans {s t u : Settings} (h : Beside s t) (g : Beside t u) : Beside s u := by
  refine ⟨g.path.trans h.path, fun m hm => g.kept (h.kept hm), fun m hm => ?_⟩
  rcases g.added m hm with hm | hm
  · exact h.added m hm
  · exact .inr hm

theorem addMatcher {s t : Settings} (hp : t.path = s.path) (ht : t.matchers = s.matchers)
    {m : Matcher} (hm : m.IgnoresPath) : Beside s (t.addMatcher m) := by
  have hmem : ∀ other, other ∈ (t.addMatcher m).matchers ↔ other = m ∨ other ∈ s.matchers := by
    intro other
    rw [← ht]
    exact Matcher.mem_insertByRank
  refine ⟨hp, fun other ho => (hmem other).2 (.inr ho), fun other ho => ?_⟩
  rcases (hmem other).1 ho with rfl | ho
  · exact .inr hm
  · exact .inl ho

end Beside

theorem Move.beside {s t : Settings} {w w' : Workshop}
    (h : Move Matcher.IgnoresPath Pattern.Kind.IgnoresPath s w t w') : Beside s t := by
  cases h with
  | matcher hm => exact .addMatcher rfl rfl hm
  | pattern hk h =>
    obtain ⟨full, p, -, hp, -, rfl⟩ := exists_of_addPattern h
    obtain ⟨-, rfl, -⟩ := Pattern.labelled_of_compile hp
    rcases hk with hk | hk
    · simp only [adopt, hk]
      exact Beside.addMatcher (s := s) (t := { s with host := some p }) (m := .host p) rfl rfl
        trivial
    · simp only [adopt, hk]
      exact Beside.addMatcher (s := s) (t := { s with queries := s.queries ++ [p] }) (m := .query p)
        rfl rfl trivial
  | refused h => exact .refl s
  | compile source => exact .refl s

theorem Moves.beside {s t : Settings} {w w' : Workshop}
    (h : Moves Matcher.IgnoresPath Pattern.Kind.IgnoresPath s w t w') : Beside s t := by
  induction h with
  | refl s w => exact .refl s
  | more h _ ih => exact h.beside.trans ih

theorem judge_congr {request other : Request} {ms : List Matcher}
    (h : ∀ m ∈ ms, ∀ vars, m.evaluate request vars = m.evaluate other vars) (vars : Vars)
    (wrong : Bool) : judge request ms vars wrong = judge other ms vars wrong := by
  induction ms generalizing vars wrong with
  | nil => rfl
  | cons m rest ih =>
    have hr := ih fun n hn => h n (List.mem_cons_of_mem m hn)
    simp only [judge, h m List.mem_cons_self, hr]

end Settings

namespace Route

open Settings (withQuery)

theorem applyAll_cons {step : RouteStep} {rest : List RouteStep} {route after : Route}
    {w w'' : Workshop} (h : Route.applyAll (step :: rest) route w = ((.ok (), after), w'')) :
    ∃ mid w', Route.apply step route w = ((.ok (), mid), w') ∧
      Route.applyAll rest mid w' = ((.ok (), after), w'') := by
  rw [Route.applyAll] at h
  generalize Route.apply step route w = result at h
  obtain ⟨⟨answer, mid⟩, w'⟩ := result
  cases answer with
  | error e => cases h
  | ok _ => exact ⟨mid, w', rfl, h⟩

theorem applyAll_append {front back : List RouteStep} {route after : Route} {w w'' : Workshop}
    (h : Route.applyAll (front ++ back) route w = ((.ok (), after), w'')) :
    ∃ mid w', Route.applyAll front route w = ((.ok (), mid), w') ∧
      Route.applyAll back mid w' = ((.ok (), after), w'') := by
  induction front generalizing route w with
  | nil => exact ⟨route, w, rfl, h⟩
  | cons step rest ih =>
    obtain ⟨next, v, hs, hn⟩ := applyAll_cons h
    rw [Route.applyAll, hs]
    exact ih hn

/-- The first path of a strict route becomes its pattern and a matcher. -/
theorem apply_first_path {template : Text} {route after : Route} {w w' : Workshop}
    (hpath : route.settings.path = none) (hs : route.settings.strictSlash = true)
    (hc : route.settings.compiler.Faithful w) (hf : Template.unconstrained template = true)
    (h : Route.apply (.path template) route w = ((.ok (), after), w')) :
    ∃ t p, Pattern.Form template .path true p t ∧
      p.wantsSlash? = some (Text.endsWith template '/') ∧
      after = route.setSettings ({ route.settings with path := some p }.addMatcher (.path p)) := by
  rw [Route.apply, Route.addPattern] at h
  cases ha : route.settings.addPattern template .path w with
  | mk answer v =>
    rw [ha] at h
    cases answer with
    | error e => cases h
    | ok s =>
      cases h
      obtain ⟨full, p, hfull, hp, -, rfl⟩ := Settings.exists_of_addPattern ha
      obtain rfl : template = full := by
        simp only [Settings.fullTemplate, Settings.extend, hpath] at hfull
        split at hfull
        · exact Except.ok.inj hfull
        · cases hfull
      have hm := (Pattern.compile_of_faithful hc template .path route.settings.strictSlash).1
      rw [hp, hs, eq_comm] at hm
      obtain ⟨t, form⟩ := Pattern.exists_form (.inl rfl) hf hm
      obtain ⟨source, regex, -, -, hpattern⟩ := Pattern.compiled_eq_ok hm
      refine ⟨t, p, form, by rw [hpattern]; rfl, ?_⟩
      simp only [Settings.adopt, Pattern.kind_of_compiled hm]

/-- A route with one path, which is strict, and with other matchers that ignore the path. -/
structure Strict (template : Text) (t : Template) (p : Pattern) (route : Route) : Prop where
  form : Pattern.Form template .path true p t
  wants : p.wantsSlash? = some (Text.endsWith template '/')
  path : route.settings.path = some p
  own : .path p ∈ route.settings.matchers
  others : ∀ m ∈ route.settings.matchers, m = .path p ∨ m.IgnoresPath
  live : route.info.inert = false
  leaf : route.subrouter? = none

/-- Steps that do not read the path leave it alone. -/
theorem ignoring_spec {steps : List RouteStep} (hs : ∀ step ∈ steps, step.IgnoresPath)
    {route after : Route} {w w' : Workshop}
    (h : Route.applyAll steps route w = ((.ok (), after), w')) :
    route.settings.Beside after.settings ∧
      after.settings.strictSlash = route.settings.strictSlash ∧
      (route.settings.compiler.Faithful w → after.settings.compiler.Faithful w') ∧
      after.info.inert = route.info.inert := by
  have hc := applyAll_configured
    (fun step hm => RouteStep.within_of_ignoresPath (hs step hm)) route w
  rw [h] at hc
  exact ⟨hc.moves.beside, hc.moves.kept.2, hc.moves.faithful,
    hc.inert.trans (Bool.or_false route.info.inert)⟩

theorem strict_of_applyAll {template : Text} {router : Router} {skip : Bool} {c : Compiler}
    {w w' : Workshop} {front back : List RouteStep} {route : Route}
    (hr : router.settings = .root true skip c) (hc : c.Faithful w)
    (hf : Template.unconstrained template = true)
    (hfront : ∀ step ∈ front, step.IgnoresPath) (hback : ∀ step ∈ back, step.IgnoresPath)
    (hok : Route.applyAll (front ++ .path template :: back) router.draft w
      = ((.ok (), route), w')) : ∃ t p, Strict template t p route := by
  have hgrows := Route.applyAll_grows (front ++ .path template :: back) router.draft w
  rw [hok] at hgrows
  obtain ⟨first, w₁, hfirst, hok⟩ := applyAll_append hok
  obtain ⟨second, w₂, hsecond, hlast⟩ := applyAll_cons hok
  have hdraft : router.draft.settings = .root true skip c := hr
  obtain ⟨hbefore, hstrict, hfaithful, hlive⟩ := ignoring_spec hfront hfirst
  rw [hdraft] at hbefore hstrict hfaithful
  obtain ⟨t, p, form, wants, rfl⟩ :=
    apply_first_path hbefore.path hstrict (hfaithful hc) hf hsecond
  obtain ⟨hlater, -, -, hlive'⟩ := ignoring_spec hback hlast
  have hmem : ∀ m,
      m ∈ ({ first.settings with path := some p }.addMatcher (.path p)).matchers ↔
        m = .path p ∨ m ∈ first.settings.matchers := fun m => Matcher.mem_insertByRank
  refine ⟨t, p, form, wants, hlater.path, hlater.kept ((hmem _).2 (.inl rfl)), fun m hm => ?_,
    hlive'.trans hlive, hgrows.subrouter⟩
  rcases hlater.added m hm with hm | hm
  · rcases (hmem m).1 hm with hm | hm
    · exact .inl hm
    · exact .inr ((hbefore.added m hm).resolve_left nofun)
  · exact .inr hm

namespace Strict

variable {template : Text} {t : Template} {p : Pattern} {route : Route} {request : Request}

/-- Whether the route answers depends on the path alone, if the other matchers accept. -/
theorem evaluate_eq (h : Strict template t p route) (hb : route.info.buildOnly = false)
    (ho : ∀ m ∈ route.settings.matchers, m.IgnoresPath → m.accepts request = true) :
    route.evaluate request = if (p.bindings? request.path).isSome then
      route.answer request (route.info.capture request) else .notFound := by
  have hleaf := h.leaf
  have hlive := h.live
  have hown := h.own
  have hothers := h.others
  obtain ⟨info, handler, middleware, subrouter⟩ := route
  obtain rfl : subrouter = none := hleaf
  have hpath : (Matcher.path p).evaluate request .empty
      = Matcher.ofCaptures ((p.bindings? request.path).map Vars.empty.insertAll) := rfl
  cases hp : p.bindings? request.path with
  | none =>
    rw [hp] at hpath
    have hr : (Matcher.path p).rejects request = true := by
      rw [Matcher.rejects, hpath]
      rfl
    have hj := (Settings.judge_eq_none request info.settings.matchers .empty false).2
      ⟨_, hown, hr⟩
    rw [Route.evaluate, hj]
    split <;> rfl
  | some bindings =>
    rw [hp] at hpath
    have hall : ∀ m ∈ info.settings.matchers, m.accepts request = true := by
      intro m hm
      rcases hothers m hm with rfl | hi
      · rw [Matcher.accepts, hpath]
        rfl
      · exact ho m hm hi
    have ha : info.admits request = true := by
      rw [RouteInfo.admits, List.all_eq_true.2 hall, Bool.and_true]
      rw [show info.buildOnly = false from hb, show info.inert = false from hlive]
      rfl
    rw [Route.evaluate_of_admits ha]
    rfl

theorem slashRedirect?_eq (h : Strict template t p route) :
    route.settings.slashRedirect? request
      = if Text.endsWith request.path '/' = Text.endsWith t.text '/' then none
        else some (withQuery (Path.turn request.path) request.query) := by
  have hw := h.wants
  rw [← Template.text_of_read? h.form.read] at hw
  have hs := Settings.slashRedirect?_eq_some route.settings request
  split
  · rename_i he
    rw [Option.eq_none_iff_forall_ne_some]
    intro location hl
    obtain ⟨⟨q, wanted, hq, hwanted, hne⟩, -⟩ := (hs location).1 hl
    cases h.path.symm.trans hq
    cases hw.symm.trans hwanted
    exact hne he.symm
  · rename_i he
    exact (hs _).2 ⟨⟨p, _, h.path, hw, fun heq => he heq.symm⟩, rfl⟩

/-- What the route makes of a request that its other matchers accept. -/
theorem evaluate_cases (h : Strict template t p route) (hb : route.info.buildOnly = false)
    {handler : Handler} (hh : route.handler? = some handler)
    (ho : ∀ m ∈ route.settings.matchers, m.IgnoresPath → m.accepts request = true) :
    route.evaluate request = if (p.bindings? request.path).isSome then
      if Text.endsWith request.path '/' = Text.endsWith t.text '/' then
        .matched ⟨route, route.info.capture request, handler, []⟩
      else .redirect (withQuery (Path.turn request.path) request.query)
        (some ⟨route, route.info.capture request, handler, []⟩)
      else .notFound := by
  rw [h.evaluate_eq hb ho, Route.answer, hh, h.slashRedirect?_eq]
  simp only
  by_cases hside : Text.endsWith request.path '/' = Text.endsWith t.text '/'
  · rw [if_pos hside, if_pos hside]
  · rw [if_neg hside, if_neg hside]

/-- On the other side the route finds the same. -/
theorem evaluate_turn (h : Strict template t p route) (hs : ¬ ['/', '/'] <:+ t.text)
    (hb : route.info.buildOnly = false) {handler : Handler} (hh : route.handler? = some handler)
    (ho : ∀ m ∈ route.settings.matchers, m.IgnoresPath → m.accepts request = true)
    (hd : ¬ ['/', '/'] <:+ request.path) (hp : (p.bindings? request.path).isSome = true)
    (hside : Text.endsWith request.path '/' ≠ Text.endsWith t.text '/') :
    route.evaluate { request with path := Path.turn request.path }
      = .matched ⟨route, route.info.capture request, handler, []⟩ := by
  obtain ⟨hturn, hdrop⟩ := Path.turn_spec hd
  have hbindings := Pattern.bindings?_congr h.form hs hdrop
  have hcapture : route.info.capture { request with path := Path.turn request.path }
      = route.info.capture request := by
    unfold RouteInfo.capture
    rw [Settings.judge_congr fun m hm vars => ?_]
    rcases h.others m hm with rfl | hi
    · exact congrArg (fun bindings => Matcher.ofCaptures (bindings.map vars.insertAll)) hbindings
    · exact Matcher.evaluate_of_ignoresPath hi request _ vars
  have hother : ∀ m ∈ route.settings.matchers, m.IgnoresPath →
      m.accepts { request with path := Path.turn request.path } = true := by
    intro m hm hi
    rw [Matcher.accepts, Matcher.evaluate_of_ignoresPath hi]
    exact ho m hm hi
  have hsame : Text.endsWith (Path.turn request.path) '/' = Text.endsWith t.text '/' := by
    rw [hturn]
    exact Bool.not_eq.2 hside
  rw [h.evaluate_cases hb hh hother, hcapture]
  simp only [hbindings, hp, hsame, if_true]

end Strict

/-- A strict route matches the language of its template and redirects, to the other side, what is in
the language when its slash is turned, unless that has two slashes at its end. -/
theorem strict_classification {template : Text} {router : Router} {skip : Bool} {c : Compiler}
    {w w' : Workshop} {front back : List RouteStep} {route : Route}
    (hr : router.settings = .root true skip c) (hc : c.Faithful w)
    (hf : Template.unconstrained template = true) (hs : ¬ ['/', '/'] <:+ template)
    (hfront : ∀ step ∈ front, step.IgnoresPath) (hback : ∀ step ∈ back, step.IgnoresPath)
    (hok : Route.applyAll (front ++ .path template :: back) router.draft w
      = ((.ok (), route), w'))
    (hh : route.handler?.isSome = true) (hb : route.info.buildOnly = false) :
    ∃ t, Template.read? template = some t ∧ t.text = template ∧
      ∀ request : Request,
        (∀ m ∈ route.settings.matchers, m.IgnoresPath → m.accepts request = true) →
        let turned := Path.turn request.path
        ((∃ found, route.evaluate request = .matched found) ↔ t.Language request.path) ∧
        ((∃ found, route.evaluate request = .redirect (withQuery turned request.query) found) ↔
          t.Language turned ∧ ¬ ['/', '/'] <:+ request.path) ∧
        (¬ t.Language request.path → ¬ (t.Language turned ∧ ¬ ['/', '/'] <:+ request.path) →
          route.evaluate request = .notFound) ∧
        ¬ (t.Language request.path ∧ t.Language turned) ∧
        ∀ location found, route.evaluate request = .redirect location found →
          location = withQuery turned request.query ∧
            ∃ before, found = some before ∧
              route.evaluate { request with path := turned } = .matched before := by
  obtain ⟨t, p, h⟩ := strict_of_applyAll hr hc hf hfront hback hok
  have htext := Template.text_of_read? h.form.read
  rw [← htext] at hs
  obtain ⟨handler, hhandler⟩ := Option.isSome_iff_exists.1 hh
  refine ⟨t, h.form.read, htext, fun request ho => ?_⟩
  obtain ⟨hmatch, hredirect⟩ := Pattern.sides h.form hs request.path
  have hone := Template.language_one_side hs request.path
  have he := h.evaluate_cases hb hhandler ho
  intro turned
  by_cases hp : (p.bindings? request.path).isSome = true
  · by_cases hside : Text.endsWith request.path '/' = Text.endsWith t.text '/'
    · rw [if_pos hp, if_pos hside] at he
      rw [he]
      refine ⟨iff_of_true ⟨_, rfl⟩ (hmatch.2 ⟨hp, hside⟩), ?_, ?_, hone, nofun⟩
      · exact iff_of_false nofun fun hl => (hredirect.1 hl).2 hside
      · exact fun hn => absurd (hmatch.2 ⟨hp, hside⟩) hn
    · rw [if_pos hp, if_neg hside] at he
      have hl := hredirect.2 ⟨hp, hside⟩
      have hturn := h.evaluate_turn hs hb hhandler ho hl.2 hp hside
      rw [he]
      refine ⟨?_, iff_of_true ⟨_, rfl⟩ hl, fun _ hn => absurd hl hn, hone, ?_⟩
      · exact iff_of_false nofun fun hm => hside (hmatch.1 hm).2
      · rintro location found ⟨⟩
        exact ⟨rfl, _, rfl, hturn⟩
  · rw [if_neg hp] at he
    rw [he]
    refine ⟨?_, ?_, fun _ _ => rfl, hone, nofun⟩
    · exact iff_of_false nofun fun hm => hp (hmatch.1 hm).1
    · exact iff_of_false nofun fun hl => hp (hredirect.1 hl).1

def strictRouter : Router := .ofSettings (.root true true .standard) 0

def strictRoute : Route :=
  (Route.applyAll ([.methods [.get]] ++ .path "/{id}/".toList :: [.handler .notFound])
    strictRouter.draft .initial).1.2

theorem strictRoute_turns :
    let request := Request.get "/7?q".toList
    Template.unconstrained "/{id}/".toList = true ∧ ¬ ['/', '/'] <:+ "/{id}/".toList ∧
      Route.applyAll ([.methods [.get]] ++ .path "/{id}/".toList :: [.handler .notFound])
        strictRouter.draft .initial = ((.ok (), strictRoute), .initial) ∧
      strictRoute.handler?.isSome = true ∧ strictRoute.info.buildOnly = false ∧
      (∀ m ∈ strictRoute.settings.matchers, m.IgnoresPath → m.accepts request = true) ∧
      ∃ found, strictRoute.evaluate request = .redirect "/7/?q".toList (some found) ∧
        strictRoute.evaluate { request with path := "/7/".toList } = .matched found := by
  intro request
  have hf : Template.unconstrained "/{id}/".toList = true := by decide
  have hs : ¬ ['/', '/'] <:+ "/{id}/".toList := by decide
  have hsteps : ∀ step ∈ [RouteStep.methods [.get]], step.IgnoresPath := by
    intro step hm
    rw [List.mem_singleton.1 hm]
    trivial
  have hback : ∀ step ∈ [RouteStep.handler .notFound], step.IgnoresPath := by
    intro step hm
    rw [List.mem_singleton.1 hm]
    trivial
  have hok : Route.applyAll ([.methods [.get]] ++ .path "/{id}/".toList :: [.handler .notFound])
      strictRouter.draft .initial = ((.ok (), strictRoute), .initial) := rfl
  have ho : ∀ m ∈ strictRoute.settings.matchers, m.IgnoresPath → m.accepts request = true := by
    obtain ⟨p, hm⟩ : ∃ p, strictRoute.settings.matchers = [.path p, .methods [.get]] := ⟨_, rfl⟩
    rw [hm]
    intro m hm hi
    rw [List.mem_cons, List.mem_singleton] at hm
    rcases hm with rfl | rfl
    · exact hi.elim
    · rfl
  have hc : Compiler.standard.Faithful .initial := trivial
  obtain ⟨t, ht, -, h⟩ := strict_classification rfl hc hf hs hsteps hback hok rfl rfl
  obtain ⟨-, hredirect, -, -, hturn⟩ := h request ho
  have hl : t.Language "/7/".toList := by
    obtain rfl := Option.some.inj ht
    exact ⟨["7".toList], rfl, by decide, rfl⟩
  obtain ⟨found, he⟩ := hredirect.2 ⟨hl, by decide⟩
  obtain ⟨-, before, rfl, hb⟩ := hturn _ _ he
  exact ⟨hf, hs, hok, rfl, rfl, ho, before, he, hb⟩

/-- Two slashes at the end of a path are one too many, even if its other side is in the language. -/
theorem double_slash_not_redirected :
    ∃ route t, Route.applyAll [.path "/a/".toList, .handler .notFound] strictRouter.draft .initial
        = ((.ok (), route), .initial) ∧
      route.handler?.isSome = true ∧ route.info.buildOnly = false ∧
      Template.unconstrained "/a/".toList = true ∧ ¬ ['/', '/'] <:+ "/a/".toList ∧
      Template.read? "/a/".toList = some t ∧ Path.turn "/a//".toList = "/a/".toList ∧
      (∃ p, route.settings.matchers = [.path p]) ∧ t.Language (Path.turn "/a//".toList) ∧
      route.evaluate (Request.get "/a//".toList) = .notFound :=
  ⟨_, _, rfl, rfl, rfl, by decide, by decide, rfl, rfl, ⟨_, rfl⟩, ⟨[], rfl, nofun, rfl⟩, rfl⟩

end Route
end HttpRouter
