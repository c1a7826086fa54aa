import HttpRouter.Proofs.Route.Ownership
import HttpRouter.Proofs.Router.AllowedMethods
import Mathlib.Data.List.Forall2

set_option autoImplicit false

namespace HttpRouter

variable {M : List Method}

namespace Matcher

theorem rank_le (m : Matcher) : m.rank ≤ 6 := by
  cases m <;> simp [rank]

/-- The second matchers are the first ones with a set of methods, behind all that are no such sets. -/
def Confined (M : List Method) (ms others : List Matcher) : Prop :=
  ∃ front back, ms = front ++ back ∧ (∀ m ∈ back, m.rank = 6) ∧
    others = front ++ .methods M :: back

theorem insertByRank_of_last {m : Matcher} (h : m.rank = 6) (ms : List Matcher) :
    m.insertByRank ms = ms ++ [m] := by
  have hi := insertByRank_append (m := m) (fun other (_ : other ∈ ms) => h ▸ other.rank_le) []
  rwa [List.append_nil] at hi

namespace Confined

variable {ms others : List Matcher}

theorem methods (ms : List Matcher) : Confined M ms ((Matcher.methods M).insertByRank ms) :=
  ⟨ms, [], (List.append_nil ms).symm, nofun, insertByRank_of_last rfl ms⟩

/-- Sets of methods are put at the end, and other matchers before all of them. -/
theorem insert (h : Confined M ms others) (m : Matcher) :
    Confined M (m.insertByRank ms) (m.insertByRank others) := by
  obtain ⟨front, back, rfl, hb, rfl⟩ := h
  by_cases hm : m.rank = 6
  · refine ⟨front, back ++ [m], ?_, ?_, ?_⟩
    · rw [insertByRank_of_last hm, List.append_assoc]
    · intro other ho
      rcases List.mem_append.1 ho with ho | ho
      · exact hb other ho
      · rwa [List.mem_singleton.1 ho]
    · rw [insertByRank_of_last hm, List.append_assoc, List.cons_append]
  · have hlt : m.rank < 6 := by
      have := m.rank_le
      omega
    refine ⟨m.insertByRank front, back, ?_, hb, insertByRank_before hlt front back⟩
    cases back with
    | nil => rw [List.append_nil, List.append_nil]
    | cons first rest => exact insertByRank_before (hb first List.mem_cons_self ▸ hlt) front rest

theorem mem_iff (h : Confined M ms others) {m : Matcher} :
    m ∈ others ↔ m = .methods M ∨ m ∈ ms := by
  obtain ⟨front, back, rfl, -, rfl⟩ := h
  simp only [List.mem_append, List.mem_cons]
  tauto

end Confined
end Matcher

namespace Settings

def Confined (M : List Method) (s t : Settings) : Prop :=
  ∃ ms, Matcher.Confined M s.matchers ms ∧ t = { s with matchers := ms }

namespace Confined

variable {s t : Settings}

theorem methods (s : Settings) : s.Confined M (s.addMatcher (.methods M)) :=
  ⟨_, .methods s.matchers, rfl⟩

theorem addMatcher (h : s.Confined M t) (m : Matcher) :
    (s.addMatcher m).Confined M (t.addMatcher m) := by
  obtain ⟨ms, hc, rfl⟩ := h
  exact ⟨_, hc.insert m, rfl⟩

theorem adopt (h : s.Confined M t) (p : Pattern) : (s.adopt p).Confined M (t.adopt p) := by
  obtain ⟨ms, hc, rfl⟩ := h
  refine ⟨p.matcher.insertByRank ms, adopt_matchers_eq s p ▸ hc.insert p.matcher, ?_⟩
  unfold Settings.adopt Pattern.matcher
  cases p.kind <;> rfl

/-- Matchers have no part in what becomes of a template. -/
theorem addPattern (h : s.Confined M t) (template : Text) (kind : Pattern.Kind) (w : Workshop) :
    ∃ (made : Except Error Pattern) (after : Workshop),
      s.addPattern template kind w = (made.map s.adopt, after) ∧
      t.addPattern template kind w = (made.map t.adopt, after) := by
  obtain ⟨ms, -, rfl⟩ := h
  exact ⟨(s.offer template kind w).1, (s.offer template kind w).2, s.addPattern_eq template kind w,
    addPattern_eq { s with matchers := ms } template kind w⟩

theorem kept (h : s.Confined M t) : t.compiler = s.compiler ∧ t.path = s.path := by
  obtain ⟨ms, -, rfl⟩ := h
  exact ⟨rfl, rfl⟩

end Confined
end Settings

def RouteInfo.Confined (M : List Method) (info other : RouteInfo) : Prop :=
  ∃ t, info.settings.Confined M t ∧ other = { info with settings := t }

theorem RouteInfo.Confined.settings {info other : RouteInfo} (h : info.Confined M other) :
    info.settings.Confined M other.settings := by
  obtain ⟨t, ht, rfl⟩ := h
  exact ht

namespace Route

inductive ConfinedAll (M : List Method) : List Route → List Route → Prop
  | nil : ConfinedAll M [] []
  | leaf {info other : RouteInfo} (h : info.Confined M other) (handler : Option Handler)
      (middleware : List Middleware) {rest others : List Route}
      (later : ConfinedAll M rest others) :
      ConfinedAll M (.mk info handler middleware none :: rest)
        (.mk other handler middleware none :: others)
  | inside {info other : RouteInfo} (h : info.Confined M other) (handler : Option Handler)
      (middleware : List Middleware) {child : Router} {t : Settings} {routes : List Route}
      (hs : child.settings.Confined M t) (inner : ConfinedAll M child.routes routes)
      {rest others : List Route} (later : ConfinedAll M rest others) :
      ConfinedAll M (.mk info handler middleware (some child) :: rest)
        (.mk other handler middleware (some { child with settings := t, routes := routes })
          :: others)

def Confined (M : List Method) (route other : Route) : Prop := ConfinedAll M [route] [other]

theorem confinedAll_iff {routes others : List Route} :
    ConfinedAll M routes others ↔ List.Forall₂ (Confined M) routes others := by
  constructor
  · intro h
    induction h with
    | nil => exact .nil
    | leaf h handler middleware later ih => exact .cons (.leaf h handler middleware .nil) ih
    | inside h handler middleware hs inner later _ ih =>
      exact .cons (.inside h handler middleware hs inner .nil) ih
  · intro h
    induction h with
    | nil => exact .nil
    | cons h _ ih =>
      cases h with
      | leaf h handler middleware => exact .leaf h handler middleware ih
      | inside h handler middleware hs inner => exact .inside h handler middleware hs inner ih

end Route

def Router.Confined (M : List Method) (router other : Router) : Prop :=
  ∃ t routes, router.settings.Confined M t ∧ Route.ConfinedAll M router.routes routes ∧
    other = { router with settings := t, routes := routes }

namespace Route.Confined

variable {route other : Route}

theorem info (h : Route.Confined M route other) : route.info.Confined M other.info := by
  cases h <;> assumption

theorem settings (h : Route.Confined M route other) : route.settings.Confined M other.settings :=
  h.info.settings

theorem kept (h : Route.Confined M route other) :
    other.handler? = route.handler? ∧ other.middleware = route.middleware := by
  cases h <;> exact ⟨rfl, rfl⟩

theorem below (h : Route.Confined M route other) :
    route.subrouter? = none ∧ other.subrouter? = none ∨
      ∃ child child', route.subrouter? = some child ∧ other.subrouter? = some child' ∧
        Router.Confined M child child' := by
  cases h with
  | leaf => exact .inl ⟨rfl, rfl⟩
  | inside _ _ _ hs inner => exact .inr ⟨_, _, rfl, rfl, _, _, hs, inner, rfl⟩

/-- Nothing but the routers below the routes has to stay as it is. -/
theorem remake (h : Route.Confined M route other) {info info' : RouteInfo}
    (hi : info.Confined M info') (handler : Option Handler) (middleware : List Middleware) :
    Route.Confined M (.mk info handler middleware route.subrouter?)
      (.mk info' handler middleware other.subrouter?) := by
  cases h with
  | leaf => exact .leaf hi handler middleware .nil
  | inside _ _ _ hs inner => exact .inside hi handler middleware hs inner .nil

theorem setInfo (h : Route.Confined M route other) {info info' : RouteInfo}
    (hi : info.Confined M info') : Route.Confined M (route.setInfo info) (other.setInfo info') := by
  rw [Route.setInfo, Route.setInfo, h.kept.1, h.kept.2]
  exact h.remake hi _ _

theorem setSettings (h : Route.Confined M route other) {s t : Settings} (ht : s.Confined M t) :
    Route.Confined M (route.setSettings s) (other.setSettings t) := by
  obtain ⟨_, -, hi⟩ := h.info
  refine h.setInfo ⟨t, ht, ?_⟩
  rw [hi]

theorem fail (h : Route.Confined M route other) : Route.Confined M route.fail other.fail := by
  obtain ⟨t, ht, hi⟩ := h.info
  refine h.setInfo ⟨t, ht, ?_⟩
  rw [hi]

theorem setSubrouter (h : Route.Confined M route other) {child child' : Router}
    (hc : Router.Confined M child child') :
    Route.Confined M (route.setSubrouter (some child)) (other.setSubrouter (some child')) := by
  obtain ⟨t, routes, hs, inner, rfl⟩ := hc
  rw [Route.setSubrouter, Route.setSubrouter, h.kept.1, h.kept.2]
  exact .inside h.info _ _ hs inner .nil

theorem addMatcher (h : Route.Confined M route other) (m : Matcher) :
    Route.Confined M (route.addMatcher m) (other.addMatcher m) :=
  h.setSettings (h.settings.addMatcher m)

end Route.Confined

/-- Two steps give the same answer and leave the same workshop, and what they make is related. -/
inductive Abreast {α : Type} (related : α → α → Prop) :
    (Except Error Unit × α) × Workshop → (Except Error Unit × α) × Workshop → Prop
  | intro (answer : Except Error Unit) {made other : α} (h : related made other) (w : Workshop) :
      Abreast related ((answer, made), w) ((answer, other), w)

namespace Route.Confined

variable {route other : Route}

theorem addPattern (h : Route.Confined M route other) (template : Text) (kind : Pattern.Kind)
    (w : Workshop) : Abreast (Route.Confined M) (route.addPattern template kind w)
      (other.addPattern template kind w) := by
  obtain ⟨made, after, hr, ho⟩ := h.settings.addPattern template kind w
  rw [Route.addPattern, Route.addPattern, hr, ho]
  cases made with
  | error e => exact .intro (.error e) h.fail after
  | ok p => exact .intro (.ok ()) (h.setSettings (h.settings.adopt p)) after

theorem addQueries (pairs : List (Text × Text)) (h : Route.Confined M route other) (w : Workshop) :
    Abreast (Route.Confined M) (Route.addQueries pairs route w)
      (Route.addQueries pairs other w) := by
  induction pairs generalizing route other w with
  | nil => exact .intro (.ok ()) h w
  | cons pair rest ih =>
    obtain ⟨key, value⟩ := pair
    have ha := h.addPattern (key ++ '=' :: value) .query w
    rw [Route.addQueries, Route.addQueries]
    generalize route.addPattern (key ++ '=' :: value) .query w = first at ha
    generalize other.addPattern (key ++ '=' :: value) .query w = second at ha
    obtain ⟨answer, hk, after⟩ := ha
    cases answer with
    | error e => exact .intro (.error e) hk after
    | ok _ => exact ih hk after

theorem addHeaderExpressions (pairs : List (Text × Text)) (h : Route.Confined M route other)
    (w : Workshop) : Abreast (Route.Confined M) (Route.addHeaderExpressions pairs route w)
      (Route.addHeaderExpressions pairs other w) := by
  rw [Route.addHeaderExpressions, Route.addHeaderExpressions, h.settings.kept.1]
  generalize compileHeaders route.settings.compiler pairs w = result
  obtain ⟨required, after⟩ := result
  cases required with
  | error e => exact .intro (.error e) h.fail after
  | ok required => exact .intro (.ok ()) (h.addMatcher _) after

theorem withPairs {step : List (Text × Text) → Route → Build (Except Error Unit × Route)}
    (hs : ∀ pairs route other, Route.Confined M route other → ∀ w,
      Abreast (Route.Confined M) (step pairs route w) (step pairs other w))
    (texts : List Text) (h : Route.Confined M route other) (w : Workshop) :
    Abreast (Route.Confined M) (Route.withPairs texts route step w)
      (Route.withPairs texts other step w) := by
  unfold Route.withPairs
  cases pairUp texts with
  | error e => exact .intro (.error e) h.fail w
  | ok pairs => exact hs pairs route other h w

/-- A step of configuration keeps the routes related. -/
theorem apply (step : RouteStep) (h : Route.Confined M route other) (w : Workshop) :
    Abreast (Route.Confined M) (Route.apply step route w) (Route.apply step other w) := by
  obtain ⟨t, ht, hi⟩ := h.info
  have done : ∀ {made made' : Route}, Route.Confined M made made' →
      Abreast (Route.Confined M) ((.ok (), made), w) ((.ok (), made'), w) :=
    fun hm => .intro (.ok ()) hm w
  cases step with
  | handler answer =>
    simp only [Route.apply]
    rw [h.kept.2]
    exact done (h.remake h.info _ _)
  | name n => exact done (h.setInfo ⟨t, ht, by rw [hi]⟩)
  | buildOnly => exact done (h.setInfo ⟨t, ht, by rw [hi]⟩)
  | metadata key value => exact done (h.setInfo ⟨t, ht, by rw [hi]⟩)
  | use m =>
    simp only [Route.apply]
    rw [h.kept.1, h.kept.2]
    exact done (h.remake h.info _ _)
  | path template => exact h.addPattern template .path w
  | pathStart template => exact h.addPattern template .pathStart w
  | host template => exact h.addPattern template .host w
  | queries texts => exact withPairs (fun pairs _ _ h => h.addQueries pairs) texts h w
  | headers texts =>
    exact withPairs (fun pairs _ _ h => .intro (.ok ()) (h.addMatcher (.headers pairs))) texts h w
  | headerExpressions texts =>
    exact withPairs (fun pairs _ _ h => h.addHeaderExpressions pairs) texts h w
  | methods accepted => exact done (h.addMatcher _)
  | schemes accepted => exact done (h.addMatcher _)
  | custom holds => exact done (h.addMatcher _)

theorem applyAll (steps : List RouteStep) (h : Route.Confined M route other) (w : Workshop) :
    Abreast (Route.Confined M) (Route.applyAll steps route w) (Route.applyAll steps other w) := by
  induction steps generalizing route other w with
  | nil => exact .intro (.ok ()) h w
  | cons step rest ih =>
    have ha := h.apply step w
    rw [Route.applyAll, Route.applyAll]
    generalize Route.apply step route w = first at ha
    generalize Route.apply step other w = second at ha
    obtain ⟨answer, hk, after⟩ := ha
    cases answer with
    | error e => exact .intro (.error e) hk after
    | ok _ => exact ih hk after

end Route.Confined

namespace Router.Confined

variable {router other : Router}

theorem opened {s t : Settings} (h : s.Confined M t) (scope : ScopeId) :
    Router.Confined M (.ofSettings s scope) (.ofSettings t scope) :=
  ⟨t, [], h, .nil, rfl⟩

theorem configure (step : RouterStep) (h : Router.Confined M router other) :
    Router.Confined M (router.apply step) (other.apply step) := by
  obtain ⟨_, routes, ⟨ms, hm, rfl⟩, hr, rfl⟩ := h
  cases step <;> exact ⟨_, routes, ⟨ms, hm, rfl⟩, hr, rfl⟩

theorem register (steps : List RouteStep) (h : Router.Confined M router other) (w : Workshop) :
    Abreast (Router.Confined M) (router.register steps w) (other.register steps w) := by
  obtain ⟨t, routes, hs, hr, rfl⟩ := h
  have hd : Route.Confined M router.draft
      (Router.draft { router with settings := t, routes := routes }) :=
    .leaf ⟨t, hs, rfl⟩ none [] .nil
  have ha := hd.applyAll steps w
  simp only [Router.register]
  generalize Route.applyAll steps router.draft w = first at ha
  generalize Route.applyAll steps (Router.draft _) w = second at ha
  obtain ⟨answer, hk, after⟩ := ha
  cases answer with
  | error e => exact .intro (.error e) ⟨t, routes, hs, hr, rfl⟩ after
  | ok _ =>
    refine .intro (.ok ()) ⟨t, _, hs, ?_, rfl⟩ after
    rw [Route.confinedAll_iff] at hr ⊢
    exact List.rel_append hr (.cons hk .nil)

theorem update (place : Nat) {change : Route → Build (Except Error Unit × Route)}
    (hc : ∀ route other, Route.Confined M route other → ∀ w,
      Abreast (Route.Confined M) (change route w) (change other w))
    (h : Router.Confined M router other) (w : Workshop) :
    Abreast (Router.Confined M) (router.update place change w) (other.update place change w) := by
  obtain ⟨t, routes, hs, hr, rfl⟩ := h
  have hlist := Route.confinedAll_iff.1 hr
  obtain ⟨hl, hget⟩ := List.forall₂_iff_get.1 hlist
  unfold Router.update
  by_cases hp : place < router.routes.length
  · have hp' : place < routes.length := hl ▸ hp
    have ha := hc _ _ (hget place hp hp') w
    rw [List.getElem?_eq_getElem hp, List.getElem?_eq_getElem hp']
    simp only [List.get_eq_getElem] at ha ⊢
    generalize change router.routes[place] w = first at ha
    generalize change routes[place] w = second at ha
    obtain ⟨answer, hk, after⟩ := ha
    refine .intro answer ⟨t, _, hs, ?_, rfl⟩ after
    refine Route.confinedAll_iff.2 (List.forall₂_iff_get.2 ⟨by simpa using hl, fun i hi hi' => ?_⟩)
    simp only [List.get_eq_getElem, List.getElem_set]
    split
    · exact hk
    · exact hget i (by simpa using hi) (by simpa using hi')
  · rw [List.getElem?_eq_none (Nat.le_of_not_lt hp),
      List.getElem?_eq_none (hl ▸ Nat.le_of_not_lt hp)]
    exact .intro (.ok ()) ⟨t, routes, hs, hr, rfl⟩ w

/-- The same call is answered alike by both routers and keeps them related. -/
theorem call (c : Call) (h : Router.Confined M router other) (w : Workshop) :
    Abreast (Router.Confined M) (router.call c w) (other.call c w) := by
  induction c generalizing router other w with
  | configure step => exact .intro (.ok ()) (h.configure step) w
  | register steps => exact h.register steps w
  | route place step => exact h.update place (fun _ _ hr => hr.apply step) w
  | delegate place =>
    exact h.update place
      (fun _ _ hr w => .intro (.ok ()) (hr.setSubrouter (opened hr.settings _)) _) w
  | inside place c ih =>
    refine h.update place (fun route other hr w => ?_) w
    rcases hr.below with ⟨hn, hn'⟩ | ⟨child, child', hs, hs', hc⟩
    · rw [Route.callBelow_of_none hn, Route.callBelow_of_none hn']
      exact .intro (.ok ()) hr w
    · have ha := ih hc w
      rw [Route.callBelow_of_some hs, Route.callBelow_of_some hs']
      generalize child.call c w = first at ha
      generalize child'.call c w = second at ha
      obtain ⟨answer, hk, after⟩ := ha
      exact .intro answer (hr.setSubrouter hk) after

theorem after (calls : List Call) (h : Router.Confined M router other) (w : Workshop) :
    Router.Confined M (after calls router w) (after calls other w) := by
  induction calls generalizing router other w with
  | nil => exact h
  | cons c rest ih =>
    have ha := h.call c w
    rw [after_cons, after_cons]
    generalize router.call c w = first at ha
    generalize other.call c w = second at ha
    obtain ⟨answer, hk, later⟩ := ha
    exact ih hk later

end Router.Confined
end HttpRouter
