import HttpRouter.Proofs.Router.History
import HttpRouter.Proofs.Router.Summary

set_option autoImplicit false

namespace HttpRouter

theorem Text.endsWith_append_eq_false {a b : Text} {c : Char} (ha : endsWith a c = false)
    (hb : endsWith b c = false) : endsWith (a ++ b) c = false := by
  rcases List.eq_nil_or_concat b with rfl | ⟨front, last, rfl⟩
  · rwa [List.append_nil]
  · rw [List.concat_eq_append] at hb ⊢
    rw [← List.append_assoc]
    simpa [endsWith] using hb

theorem Text.trimEnd_eq_self {text : Text} {c : Char} (h : endsWith text c = false) :
    trimEnd c text = text := by
  rcases List.eq_nil_or_concat text with rfl | ⟨front, last, rfl⟩
  · rfl
  · have hn : (last == c) = false := by simpa [endsWith] using h
    simp [trimEnd, hn]

/-- A router whose only route is this one, or delegates by prefixes that the path covers to a router
of this kind. -/
inductive Tower (q : Pattern) (leaf : Route) : Router → Prop
  | last {router : Router} (h : router.routes = [leaf]) : Tower q leaf router
  | more {router child : Router} {settings : Settings} {prefixes : List Pattern}
      (h : router.routes = [.mk (.ofSettings settings) none [] (some child)])
      (hm : settings.matchers = prefixes.map .pathStart) (hp : ∀ p ∈ prefixes, q.Covers p)
      (hc : Tower q leaf child) : Tower q leaf router

/-- All routers of a tower answer as the innermost one does. -/
theorem Tower.summary_scan {q : Pattern} {leaf : Route} {router : Router}
    (h : Tower q leaf router) {request : Request}
    (hb : (leaf.evaluate request).summary.Binds q.names)
    (hn : q.bindings? request.path = none → (leaf.evaluate request).summary = .notFound) :
    (router.scan request).summary = (leaf.evaluate request).summary.alone := by
  induction h with
  | last h => exact Router.summary_scan h request
  | more h hm hp hc ih =>
    rw [Router.summary_scan h, Route.summary_prefixed ⟨rfl, rfl⟩ hm hp, ih, Summary.alone_alone]
    · rw [ih]
      exact Summary.binds_alone hb
    · intro hq
      rw [ih, hn hq]
      rfl

namespace Settings

def prefixed (strict skip : Bool) (prefixes : List Pattern) : Settings :=
  ⟨strict, skip, .standard, prefixes.map .pathStart, prefixes.getLast?, none, []⟩

/-- The prefixes are those on the way to a template, which has neither a constraint nor a slash at
its end. -/
structure Leads (prefixes : List Pattern) (template : Text) : Prop where
  last : (prefixes.getLast?.map Pattern.template).getD [] = template
  slash : (template.isEmpty || Text.startsWith template ['/']) = true
  noSlash : Text.endsWith template '/' = false
  read : ∃ t, Template.read? template = some t
  unconstrained : Template.unconstrained template = true
  forms : ∀ p ∈ prefixes, ∃ front back t, template = front ++ back ∧
    Text.endsWith front '/' = false ∧ p.Form front .pathStart false t

theorem leads_nil : Leads [] [] where
  last := rfl
  slash := rfl
  noSlash := rfl
  read := ⟨_, rfl⟩
  unconstrained := rfl
  forms := nofun

variable {strict skip : Bool} {prefixes : List Pattern} {template : Text}

/-- The pattern of a path after prefixes is that of the whole template. -/
theorem addPattern_prefixed (strict skip : Bool) (h : Leads prefixes template)
    {kind : Pattern.Kind} (hk : kind = .path ∨ kind = .pathStart) (more : Text) (w : Workshop) :
    (prefixed strict skip prefixes).addPattern more kind w =
      (if more.isEmpty || Text.startsWith more ['/'] then
        (Pattern.compiled (template ++ more) kind strict).map
          (prefixed strict skip prefixes).adopt
      else .error (.pathWithoutSlash more), w) := by
  have he : (prefixed strict skip prefixes).extend more = template ++ more := by
    have hl := h.last
    unfold extend prefixed
    cases hp : prefixes.getLast? with
    | none =>
      rw [hp] at hl
      simp only [← hl]
      rfl
    | some before =>
      rw [hp] at hl
      have ht : before.template = template := hl
      simp only [ht]
      rw [Text.trimEnd_eq_self h.noSlash]
  have hr : (prefixed strict skip prefixes).rivals kind = [] := by
    rcases hk with rfl | rfl <;> rfl
  have hf : (prefixed strict skip prefixes).fullTemplate more kind
      = if more.isEmpty || Text.startsWith more ['/'] then .ok (template ++ more)
        else .error (.pathWithoutSlash more) := by
    rcases hk with rfl | rfl <;> simp only [fullTemplate, he]
  have hc : (prefixed strict skip prefixes).compiler = .standard := rfl
  have hst : (prefixed strict skip prefixes).strictSlash = strict := rfl
  unfold addPattern
  rw [hf]
  cases more.isEmpty || Text.startsWith more ['/'] with
  | false => rfl
  | true =>
    simp only [if_true, hc, hst, Pattern.compile_standard, hr]
    cases Pattern.compiled (template ++ more) kind strict <;> rfl

theorem adopt_start {p : Pattern} (hk : p.kind = .pathStart) :
    (prefixed strict skip prefixes).adopt p = prefixed strict skip (prefixes ++ [p]) := by
  have hm : (Matcher.pathStart p).insertByRank (prefixes.map .pathStart)
      = (prefixes ++ [p]).map .pathStart := by
    have hr : ∀ other ∈ prefixes.map Matcher.pathStart,
        other.rank ≤ (Matcher.pathStart p).rank := by
      intro other ho
      obtain ⟨before, -, rfl⟩ := List.mem_map.1 ho
      exact Nat.le_refl 2
    have hi := Matcher.insertByRank_append hr []
    rw [List.append_nil] at hi
    rw [hi, List.map_append]
    rfl
  unfold adopt
  simp only [hk, addMatcher, prefixed, List.getLast?_concat, hm]

theorem behind_adopt {q : Pattern} (hk : q.kind = .path) :
    Behind prefixes q ((prefixed strict skip []).adopt q)
      ((prefixed strict skip prefixes).adopt q) := by
  have hr : ∀ other ∈ prefixes.map Matcher.pathStart, other.rank ≤ (Matcher.path q).rank := by
    intro other ho
    obtain ⟨before, -, rfl⟩ := List.mem_map.1 ho
    exact Nat.le_refl 2
  have hi := Matcher.insertByRank_append hr []
  rw [List.append_nil] at hi
  unfold adopt
  simp only [hk]
  refine ⟨rfl, rfl, [], [], nofun, nofun, rfl, ?_⟩
  simp only [addMatcher, prefixed, hi]
  rfl

theorem Leads.step (h : Leads prefixes template) {more : Text} {p : Pattern}
    (hp : Pattern.compiled (template ++ more) .pathStart strict = .ok p)
    (hm : (more.isEmpty || Text.startsWith more ['/']) = true)
    (hs : Text.endsWith more '/' = false) (hf : Template.unconstrained more = true) :
    Leads (prefixes ++ [p]) (template ++ more) := by
  obtain ⟨t, ht⟩ := h.read
  have hu := Template.unconstrained_append ht h.unconstrained hf
  obtain ⟨u, form⟩ := Pattern.exists_form (.inr rfl) hu hp
  have hn : Text.endsWith (template ++ more) '/' = false :=
    Text.endsWith_append_eq_false h.noSlash hs
  obtain ⟨source, regex, -, -, he⟩ := Pattern.compiled_eq_ok hp
  refine ⟨?_, ?_, hn, ⟨u, form.read⟩, hu, ?_⟩
  · rw [List.getLast?_concat, he]
    rfl
  · have hslash := h.slash
    cases template with
    | nil => exact hm
    | cons c rest => simpa [Text.startsWith] using hslash
  · intro other ho
    rcases List.mem_append.1 ho with ho | ho
    · obtain ⟨front, back, v, hv, hb⟩ := h.forms other ho
      exact ⟨front, back ++ more, v, by rw [hv, List.append_assoc], hb⟩
    · obtain rfl := List.mem_singleton.1 ho
      have hd : (strict && decide (Pattern.Kind.pathStart = .path)) = false := Bool.and_false _
      rw [hd] at form
      exact ⟨template ++ more, [], u, (List.append_nil _).symm, hn, form⟩

/-- The pattern of a path covers the prefixes on the way to it, and every match of it gives its
variables their values. -/
theorem Leads.covers (h : Leads prefixes template) {more : Text} {q : Pattern}
    (hq : Pattern.compiled (template ++ more) .path strict = .ok q)
    (hf : Template.unconstrained more = true) :
    (∀ p ∈ prefixes, q.Covers p) ∧
      ∀ text bindings, q.bindings? text = some bindings → bindings.map Prod.fst = q.names := by
  obtain ⟨t, ht⟩ := h.read
  have hu := Template.unconstrained_append ht h.unconstrained hf
  obtain ⟨u, form⟩ := Pattern.exists_form (.inl rfl) hu hq
  refine ⟨fun p hp => ?_, fun text bindings hb => Pattern.names_of_bindings? form hb⟩
  obtain ⟨front, back, v, rfl, hs, hform⟩ := h.forms p hp
  rw [List.append_assoc] at form
  exact Pattern.covers_of_form hs hform form

end Settings

namespace RouteStep

def isMatcher : RouteStep → Bool
  | methods _ | schemes _ | headers _ | headerExpressions _ | custom _ => true
  | _ => false

end RouteStep

namespace Route

theorem compileHeaders_standard (pairs : List (Text × Text)) :
    ∃ result, ∀ w, compileHeaders .standard pairs w = (result, w) := by
  induction pairs with
  | nil => exact ⟨.ok [], fun _ => rfl⟩
  | cons pair rest ih =>
    obtain ⟨name, source⟩ := pair
    obtain ⟨result, hr⟩ := ih
    simp only [compileHeaders, Compiler.compile, hr]
    split
    · exact ⟨_, fun _ => rfl⟩
    · cases Expression.parse? source with
      | none => exact ⟨_, fun _ => rfl⟩
      | some expression => exact ⟨_, fun _ => rfl⟩

/-- A step that adds a matcher without a pattern to one route adds the same to every other. -/
theorem apply_matcher {step : RouteStep} (h : step.isMatcher = true) {route : Route}
    {w : Workshop} (hc : route.settings.compiler = .standard)
    (hok : (Route.apply step route w).1.1.isOk = true) :
    ∃ m : Matcher, m.isBare = true ∧ ∀ (other : Route) (w' : Workshop),
      other.settings.compiler = .standard →
        Route.apply step other w' = ((.ok (), other.addMatcher m), w') := by
  cases step with
  | methods accepted => exact ⟨.methods accepted, rfl, fun _ _ _ => rfl⟩
  | schemes accepted => exact ⟨.schemes (accepted.map Text.lower), rfl, fun _ _ _ => rfl⟩
  | custom holds => exact ⟨.custom holds, rfl, fun _ _ _ => rfl⟩
  | headers texts =>
    simp only [Route.apply, withPairs] at hok ⊢
    cases hp : pairUp texts with
    | error e =>
      rw [hp] at hok
      cases hok
    | ok pairs => exact ⟨.headers pairs, rfl, fun _ _ _ => rfl⟩
  | headerExpressions texts =>
    simp only [Route.apply, withPairs] at hok ⊢
    cases hp : pairUp texts with
    | error e =>
      rw [hp] at hok
      cases hok
    | ok pairs =>
      rw [hp] at hok
      obtain ⟨result, hr⟩ := compileHeaders_standard pairs
      simp only [addHeaderExpressions, hc, hr] at hok
      cases result with
      | error e => cases hok
      | ok required =>
        refine ⟨.headerExpressions required, rfl, fun other w' ho => ?_⟩
        simp only [addHeaderExpressions, ho, hr]
  | _ => cases h

end Route

namespace Call

def handle (template : Text) (handler : Handler) (steps : List RouteStep) : List Call :=
  .register [.path template, .handler handler] :: steps.map (.route 0)

/-- Calls on the router below the last of the prefixes, each of which is registered on the router
below the one before it. -/
def nested : List Text → List Call → List Call
  | [], calls => calls
  | start :: rest, calls =>
    .register [.pathStart start] :: .delegate 0 :: (nested rest calls).map (.inside 0)

theorem handle_ne_configure {template : Text} {handler : Handler} {steps : List RouteStep}
    {c : Call} (h : c ∈ handle template handler steps) (step : RouterStep) : c ≠ .configure step := by
  rcases List.mem_cons.1 h with rfl | h
  · exact nofun
  · obtain ⟨s, -, rfl⟩ := List.mem_map.1 h
    exact nofun

theorem nested_ne_configure {starts : List Text} {calls : List Call}
    (hc : ∀ c ∈ calls, ∀ step, c ≠ .configure step) {c : Call} (h : c ∈ nested starts calls)
    (step : RouterStep) : c ≠ .configure step := by
  cases starts with
  | nil => exact hc c h step
  | cons start rest =>
    rcases List.mem_cons.1 h with rfl | h
    · exact nofun
    · rcases List.mem_cons.1 h with rfl | h
      · exact nofun
      · obtain ⟨s, -, rfl⟩ := List.mem_map.1 h
        exact nofun

end Call

namespace Router

theorem callAll_inside (calls : List Call) {router child : Router} {info : RouteInfo}
    {handler : Option Handler} {middleware : List Middleware}
    (h : router.routes = [.mk info handler middleware (some child)]) (w : Workshop) :
    callAll (calls.map (.inside 0)) router w =
      (((callAll calls child w).1.1,
        { router with routes := [.mk info handler middleware (some (after calls child w))] }),
        (callAll calls child w).2) := by
  have h0 : router.routes[0]? = some (.mk info handler middleware (some child)) := by
    rw [h, List.getElem?_cons_zero]
  rw [callAll_below calls h0 rfl, setRoute, h]
  rfl

theorem succeeds_inside (calls : List Call) {router child : Router} {info : RouteInfo}
    {handler : Option Handler} {middleware : List Middleware}
    (h : router.routes = [.mk info handler middleware (some child)]) (w : Workshop) :
    succeeds (calls.map (.inside 0)) router w = succeeds calls child w := by
  rw [succeeds, callAll_inside calls h]
  rfl

theorem routes_inside (calls : List Call) {router child : Router} {info : RouteInfo}
    {handler : Option Handler} {middleware : List Middleware}
    (h : router.routes = [.mk info handler middleware (some child)]) (w : Workshop) :
    (after (calls.map (.inside 0)) router w).routes
      = [.mk info handler middleware (some (after calls child w))] := by
  rw [after, callAll_inside calls h]

def holding (routes : List Route) (s : Settings) (scope : ScopeId) : Router :=
  { (RouterOf.ofSettings s scope : Router) with routes }

variable {strict skip : Bool} {prefixes : List Pattern} {template : Text} {scope : ScopeId}
  {w : Workshop}

theorem call_register_start (s : Settings) (scope : ScopeId) (start : Text) (w : Workshop) :
    (holding [] s scope).call (.register [.pathStart start]) w =
      match s.addPattern start .pathStart w with
      | (.error e, w) => ((.error e, holding [] s scope), w)
      | (.ok after, w) => ((.ok (), holding [.ofSettings after] s scope), w) := by
  have hd : (holding [] s scope).draft.settings = s := rfl
  simp only [call, register, Route.applyAll, Route.apply, Route.addPattern, hd]
  rcases s.addPattern start .pathStart w with ⟨_ | _, _⟩ <;> rfl

theorem call_register_handle (s : Settings) (scope : ScopeId) (path : Text) (handler : Handler)
    (w : Workshop) :
    (holding [] s scope).call (.register [.path path, .handler handler]) w =
      match s.addPattern path .path w with
      | (.error e, w) => ((.error e, holding [] s scope), w)
      | (.ok after, w) => ((.ok (), holding [.plain after handler] s scope), w) := by
  have hd : (holding [] s scope).draft.settings = s := rfl
  simp only [call, register, Route.applyAll, Route.apply, Route.addPattern, hd]
  rcases s.addPattern path .path w with ⟨_ | _, _⟩ <;> rfl

theorem register_start (h : Settings.Leads prefixes template) {start : Text}
    (hs : Text.endsWith start '/' = false) (hf : Template.unconstrained start = true)
    (hok : ((holding [] (.prefixed strict skip prefixes) scope).call
      (.register [.pathStart start]) w).1.1.isOk = true) :
    ∃ p, Settings.Leads (prefixes ++ [p]) (template ++ start) ∧
      (holding [] (.prefixed strict skip prefixes) scope).call (.register [.pathStart start]) w
        = ((.ok (), holding [.ofSettings (.prefixed strict skip (prefixes ++ [p]))]
          (.prefixed strict skip prefixes) scope), w) := by
  rw [call_register_start, Settings.addPattern_prefixed strict skip h (.inr rfl)] at hok ⊢
  cases hm : start.isEmpty || Text.startsWith start ['/'] with
  | false =>
    rw [hm] at hok
    cases hok
  | true =>
    rw [hm] at hok
    cases hp : Pattern.compiled (template ++ start) .pathStart strict with
    | error e =>
      rw [hp] at hok
      cases hok
    | ok p =>
      refine ⟨p, h.step hp hm hs hf, ?_⟩
      rw [← Settings.adopt_start (Pattern.kind_of_compiled hp)]
      rfl

theorem compiled_of_register (h : Settings.Leads prefixes template) {path : Text}
    {handler : Handler} (hok : ((holding [] (.prefixed strict skip prefixes) scope).call
      (.register [.path path, .handler handler]) w).1.1.isOk = true) :
    (path.isEmpty || Text.startsWith path ['/']) = true ∧
      ∃ q, Pattern.compiled (template ++ path) .path strict = .ok q := by
  rw [call_register_handle, Settings.addPattern_prefixed strict skip h (.inl rfl)] at hok
  cases hm : path.isEmpty || Text.startsWith path ['/'] with
  | false =>
    rw [hm] at hok
    cases hok
  | true =>
    rw [hm] at hok
    cases hq : Pattern.compiled (template ++ path) .path strict with
    | error e =>
      rw [hq] at hok
      cases hok
    | ok q => exact ⟨rfl, q, rfl⟩

theorem register_handle (skip : Bool) (h : Settings.Leads prefixes template) {path : Text}
    {q : Pattern}
    (hm : (path.isEmpty || Text.startsWith path ['/']) = true)
    (hq : Pattern.compiled (template ++ path) .path strict = .ok q) (handler : Handler)
    (scope : ScopeId) (w : Workshop) :
    (holding [] (.prefixed strict skip prefixes) scope).call
        (.register [.path path, .handler handler]) w
      = ((.ok (), holding [.plain ((Settings.prefixed strict skip prefixes).adopt q) handler]
        (.prefixed strict skip prefixes) scope), w) := by
  rw [call_register_handle, Settings.addPattern_prefixed strict skip h (.inl rfl), if_pos hm, hq]
  rfl

/-- The calls below the prefixes are made on a router at the bottom of a tower. -/
theorem nested_tower {starts : List Text} (h : Settings.Leads prefixes template)
    (hs : ∀ start ∈ starts, Text.endsWith start '/' = false)
    (hf : ∀ start ∈ starts, Template.unconstrained start = true) {calls : List Call}
    (hok : succeeds (Call.nested starts calls) (holding [] (.prefixed strict skip prefixes) scope) w
      = true) :
    ∃ more scope' w', Settings.Leads (prefixes ++ more) (template ++ starts.flatten) ∧
      succeeds calls (holding [] (.prefixed strict skip (prefixes ++ more)) scope') w' = true ∧
      ∀ q leaf, (∀ p ∈ prefixes ++ more, q.Covers p) →
        (after calls (holding [] (.prefixed strict skip (prefixes ++ more)) scope') w').routes
          = [leaf] →
        Tower q leaf
          (after (Call.nested starts calls) (holding [] (.prefixed strict skip prefixes) scope)
            w) := by
  -- Every prefix takes the rest of the calls to the router below the route that it registers.
  induction starts generalizing prefixes template scope w with
  | nil =>
    refine ⟨[], scope, w, ?_, ?_, ?_⟩
    · simpa using h
    · rw [List.append_nil]
      exact hok
    · intro q leaf hp hr
      rw [List.append_nil] at hr
      exact .last hr
  | cons start rest ih =>
    rw [Call.nested, succeeds_cons, Bool.and_eq_true] at hok
    obtain ⟨hfirst, hok⟩ := hok
    obtain ⟨p, hl, hc⟩ := register_start h (hs start List.mem_cons_self)
      (hf start List.mem_cons_self) hfirst
    obtain ⟨router, scope', w', hr, hd⟩ :
        ∃ router scope' w', router.routes = [.mk (.ofSettings (.prefixed strict skip
            (prefixes ++ [p]))) none [] (some (holding [] (.prefixed strict skip (prefixes ++ [p]))
            scope'))] ∧
          (holding [.ofSettings (.prefixed strict skip (prefixes ++ [p]))]
            (.prefixed strict skip prefixes) scope).call (.delegate 0) w
              = ((.ok (), router), w') := ⟨_, _, _, rfl, rfl⟩
    rw [hc, succeeds_cons, hd, Bool.and_eq_true, succeeds_inside _ hr] at hok
    obtain ⟨more, scope'', w'', hl', hok', ht⟩ := ih hl
      (fun other ho => hs other (List.mem_cons_of_mem start ho))
      (fun other ho => hf other (List.mem_cons_of_mem start ho)) hok.2
    refine ⟨p :: more, scope'', w'', ?_, ?_, ?_⟩
    · simpa using hl'
    · simpa using hok'
    · intro q leaf hp hleaf
      have ha : prefixes ++ p :: more = prefixes ++ [p] ++ more := by simp
      rw [ha] at hp hleaf
      have hroutes := routes_inside (Call.nested rest calls) hr w'
      rw [Call.nested, after_cons, hc, after_cons, hd]
      exact .more hroutes rfl (fun other ho => hp other (List.mem_append_left more ho))
        (ht q leaf hp hleaf)

theorem steps_behind {q : Pattern} {s t : Settings} (h : Settings.Behind prefixes q s t)
    {steps : List RouteStep} (hs : ∀ step ∈ steps, step.isMatcher = true) {handler : Handler}
    {router flat : Router} (hr : router.routes = [.plain t handler])
    (hf : flat.routes = [.plain s handler]) {w : Workshop} (w' : Workshop)
    (hok : succeeds (steps.map (.route 0)) router w = true) :
    succeeds (steps.map (.route 0)) flat w' = true ∧
      ∃ s t, Settings.Behind prefixes q s t ∧
        (after (steps.map (.route 0)) router w).routes = [.plain t handler] ∧
        (after (steps.map (.route 0)) flat w').routes = [.plain s handler] := by
  induction steps generalizing s t router flat w w' with
  | nil => exact ⟨rfl, s, t, h, hr, hf⟩
  | cons step rest ih =>
    have hc : router.call (.route 0 step) w = router.update 0 (Route.apply step) w := rfl
    have hc' : flat.call (.route 0 step) w' = flat.update 0 (Route.apply step) w' := rfl
    rw [update_single hr] at hc
    rw [update_single hf] at hc'
    rw [List.map_cons, succeeds_cons, hc, Bool.and_eq_true] at hok
    obtain ⟨hfirst, hok⟩ := hok
    have hcomp : (Route.plain t handler).settings.compiler = .standard := h.compiler_eq
    have hcomp' : (Route.plain s handler).settings.compiler = .standard := h.compiler
    obtain ⟨m, hm, ha⟩ := Route.apply_matcher (hs step List.mem_cons_self) hcomp hfirst
    rw [ha _ _ hcomp] at hc hok
    rw [ha _ _ hcomp'] at hc'
    rw [List.map_cons, succeeds_cons, after_cons, after_cons, hc, hc']
    exact ih (h.addMatcher hm) (fun other ho => hs other (List.mem_cons_of_mem step ho)) rfl rfl
      w' hok

def flagged (strict skip : Bool) (scope : ScopeId) : Router :=
  Router.apply (.skipClean skip) (Router.apply (.strictSlash strict) (.ofSettings .initial scope))

theorem flagged_eq (strict skip : Bool) (scope : ScopeId) :
    flagged strict skip scope = holding [] (.prefixed strict skip []) scope := rfl

theorem summary_resolve {router other : Router} {request : Request}
    (hk : router.settings.skipClean = other.settings.skipClean)
    (h : (router.scan request).summary = (other.scan request).summary) :
    (router.resolve request).summary = (other.resolve request).summary := by
  simp only [resolve, hk]
  split
  · rfl
  · exact h

/-- If a handler can be registered below prefixes, then it can be registered with the whole
template, and both routers answer every request alike. -/
theorem nested_resolves_as_flat (strict skip : Bool) (starts : List Text) (path : Text)
    (handler : Handler) (steps : List RouteStep) (scope scope' : ScopeId) (w w' : Workshop)
    (hs : ∀ start ∈ starts, Text.endsWith start '/' = false)
    (hf : ∀ start ∈ path :: starts, Template.unconstrained start = true)
    (hm : ∀ step ∈ steps, step.isMatcher = true)
    (hok : succeeds (Call.nested starts (Call.handle path handler steps))
      (flagged strict skip scope) w = true) :
    succeeds (Call.handle (starts.flatten ++ path) handler steps) (flagged strict skip scope') w'
      = true ∧
    ∀ request,
      ((after (Call.nested starts (Call.handle path handler steps))
        (flagged strict skip scope) w).resolve request).summary
      = ((after (Call.handle (starts.flatten ++ path) handler steps)
        (flagged strict skip scope') w').resolve request).summary := by
  rw [flagged_eq] at hok ⊢
  rw [flagged_eq]
  have hfp := hf path List.mem_cons_self
  obtain ⟨prefixes, inner, w'', hl, hok', htower⟩ := nested_tower Settings.leads_nil hs
    (fun start ho => hf start (List.mem_cons_of_mem path ho)) hok
  simp only [List.nil_append] at hl hok' htower
  rw [Call.handle, succeeds_cons, Bool.and_eq_true] at hok'
  obtain ⟨hfirst, hrest⟩ := hok'
  obtain ⟨hslash, q, hq⟩ := compiled_of_register hl hfirst
  -- The whole template compiles, as the inner route has the same source.
  have hslash' : ((starts.flatten ++ path).isEmpty
      || Text.startsWith (starts.flatten ++ path) ['/']) = true := by
    have hstart := hl.slash
    cases hstarts : starts.flatten with
    | nil => exact hslash
    | cons c rest => simpa [hstarts, Text.startsWith] using hstart
  have hnested := register_handle skip hl hslash hq handler inner w''
  have hflat := register_handle skip Settings.leads_nil hslash' hq handler scope' w'
  rw [hnested] at hrest
  have hfirst' : (holding [.plain ((Settings.prefixed strict skip []).adopt q) handler]
      (.prefixed strict skip []) scope').routes
        = [.plain ((Settings.prefixed strict skip []).adopt q) handler] := rfl
  obtain ⟨hsteps, s, t, hbehind, hleaf, hroutes⟩ :=
    steps_behind (Settings.behind_adopt (Pattern.kind_of_compiled hq)) hm rfl hfirst' w' hrest
  obtain ⟨hcovers, hbound⟩ := hl.covers hq (hf path List.mem_cons_self)
  refine ⟨?_, fun request => summary_resolve ?_ ?_⟩
  · rw [Call.handle, succeeds_cons, hflat, hsteps]
    rfl
  · rw [settings_after (fun c hc => Call.nested_ne_configure
        (fun d hd => Call.handle_ne_configure hd) hc),
      settings_after (fun c hc => Call.handle_ne_configure hc)]
    rfl
  · have hplain := Route.summary_plain hbehind hbound handler request
    have hsame := Route.summary_behind hbehind hcovers hbound handler request
    have ht := htower q (.plain t handler) hcovers (by
      rw [Call.handle, after_cons, hnested]
      exact hleaf)
    have hflatRoutes : (after (Call.handle (starts.flatten ++ path) handler steps)
        (holding [] (.prefixed strict skip []) scope') w').routes = [.plain s handler] := by
      rw [Call.handle, after_cons, hflat]
      exact hroutes
    rw [summary_scan hflatRoutes, ← hsame]
    exact ht.summary_scan (by rw [hsame]; exact hplain.1) (by rw [hsame]; exact hplain.2)

def postSteps : List RouteStep := [.methods [.get], .schemes ["http".toList]]

theorem nested_post :
    let nested := Call.nested ["/users/{user}".toList, "/posts".toList]
      (Call.handle "/{post}/".toList .notFound postSteps)
    let flat := Call.handle "/users/{user}/posts/{post}/".toList .notFound postSteps
    succeeds nested (flagged true false 0) .initial = true ∧
      succeeds flat (flagged true false 0) .initial = true ∧
      ∀ request, ((after nested (flagged true false 0) .initial).resolve request).summary
        = ((after flat (flagged true false 0) .initial).resolve request).summary := by
  intro nested flat
  have hok : succeeds nested (flagged true false 0) .initial = true := by decide +kernel
  refine ⟨hok, ?_⟩
  exact nested_resolves_as_flat true false ["/users/{user}".toList, "/posts".toList]
    "/{post}/".toList .notFound postSteps 0 0 .initial .initial (by decide) (by decide)
    (by decide) hok

end Router
end HttpRouter
