import HttpRouter.Proofs.Route.Additions
import HttpRouter.Proofs.Route.Ranks
import HttpRouter.Proofs.Router.History

set_option autoImplicit false

/-!
# Ledgers of matchers

A ledger is kept along the calls on a tree of routers.  It has the matchers with which the routes of
each router begin, and for each route those that its own calls added, in the order of the calls.
Throughout every tree that calls can make, the matchers of a route are the stable sort by rank of all
these, and each of them was put where the search for its place may be used.
-/
namespace HttpRouter

structure LedgerOf (α : Type) where
  /-- The matchers with which routes of the router begin. -/
  inherited : List Matcher
  entries : List α

/-- What is kept of a route: the matchers that its own calls added, in their order, and the ledger of
the router below it. -/
inductive Entry where
  | mk (own : List Matcher) (below : Option (LedgerOf Entry))

abbrev Ledger := LedgerOf Entry

namespace Entry

def own : Entry → List Matcher
  | mk own _ => own

def below? : Entry → Option Ledger
  | mk _ below => below

def add (entry : Entry) (ms : List Matcher) : Entry := mk (entry.own ++ ms) entry.below?

def setBelow (entry : Entry) (ledger : Ledger) : Entry := mk entry.own (some ledger)

end Entry

namespace Ledger

def opened (inherited : List Matcher) : Ledger := ⟨inherited, []⟩

def update (place : Nat) (router : Router) (change : Entry → Route → Entry) (ledger : Ledger) :
    Ledger :=
  match router.routes[place]? with
  | none => ledger
  | some route => { ledger with entries := ledger.entries.modify place (change · route) }

/-- The ledger after a call on the router.  A route that fails while it is registered gets no entry,
and a new router below a route begins with the sorted matchers of the route. -/
def record : Ledger → Call → Router → Workshop → Ledger
  | ledger, .configure _, _, _ => ledger
  | ledger, .register steps, router, w =>
    match (router.register steps w).1.1 with
    | .error _ => ledger
    | .ok () =>
      { ledger with entries := ledger.entries ++ [.mk (Route.addedAll steps router.draft w) none] }
  | ledger, .route place step, router, w =>
    ledger.update place router fun entry route => entry.add (route.added step w)
  | ledger, .delegate place, router, _ =>
    ledger.update place router fun entry _ =>
      entry.setBelow (opened (Matcher.byRank (ledger.inherited ++ entry.own)))
  | ledger, .inside place c, router, w =>
    ledger.update place router fun entry route =>
      match entry.below?, route.subrouter? with
      | some below, some child => entry.setBelow (record below c child w)
      | _, _ => entry

def recordAll : Ledger → List Call → Router → Workshop → Ledger
  | ledger, [], _, _ => ledger
  | ledger, c :: rest, router, w =>
    recordAll (ledger.record c router w) rest (router.call c w).1.2 (router.call c w).2

end Ledger

mutual

/-- The ledger has the matchers with which routes of the router begin, also those that fail while
they are registered, and entries that describe its routes. -/
inductive Ledger.Describes : Ledger → Router → Prop
  | intro {ledger : Ledger} {router : Router} (ranked : Matcher.Ranked ledger.inherited)
    (inherited : router.settings.matchers = ledger.inherited)
    (drafts : ∀ steps w, Settings.Accrued ledger.inherited (Route.addedAll steps router.draft w)
      (Route.applyAll steps router.draft w).1.2.settings.matchers)
    (length : ledger.entries.length = router.routes.length)
    (routes : ∀ (place : Nat) (entry : Entry) (route : Route), ledger.entries[place]? = some entry →
      router.routes[place]? = some route → Entry.Describes ledger.inherited entry route) :
    Ledger.Describes ledger router

inductive Entry.Describes : List Matcher → Entry → Route → Prop
  | leaf {inherited own : List Matcher} {route : Route}
    (accrued : Settings.Accrued inherited own route.settings.matchers)
    (hn : route.subrouter? = none) : Entry.Describes inherited (.mk own none) route
  | delegating {inherited own : List Matcher} {route : Route} {ledger : Ledger} {child : Router}
    (accrued : Settings.Accrued inherited own route.settings.matchers)
    (hc : route.subrouter? = some child) (deeper : Ledger.Describes ledger child) :
    Entry.Describes inherited (.mk own (some ledger)) route

end

namespace Entry.Describes

variable {inherited : List Matcher} {entry : Entry} {route next : Route}

theorem accrued (h : Entry.Describes inherited entry route) :
    Settings.Accrued inherited entry.own route.settings.matchers := by
  cases h <;> assumption

theorem add (h : Entry.Describes inherited entry route) (hi : Matcher.Ranked inherited)
    {ms : List Matcher} (hs : next.subrouter? = route.subrouter?)
    (hm : next.settings.matchers = Settings.insertAll ms route.settings.matchers) :
    Entry.Describes inherited (entry.add ms) next := by
  have ha := hm ▸ h.accrued.more hi ms
  cases h with
  | leaf _ hn => exact .leaf ha (hs.trans hn)
  | delegating _ hc deeper => exact .delegating ha (hs.trans hc) deeper

theorem setBelow (h : Entry.Describes inherited entry route) {ledger : Ledger} {child : Router}
    (deeper : ledger.Describes child) :
    Entry.Describes inherited (entry.setBelow ledger) (route.setSubrouter (some child)) :=
  .delegating h.accrued rfl deeper

end Entry.Describes

namespace Ledger.Describes

variable {ledger : Ledger} {router : Router}

/-- Routes that are being registered begin with the matchers that the ledger has. -/
theorem of_paired (ranked : Matcher.Ranked ledger.inherited)
    (inherited : router.settings.matchers = ledger.inherited)
    (paired : Paired (Entry.Describes ledger.inherited) ledger.entries router.routes) :
    ledger.Describes router := by
  refine .intro ranked inherited (fun steps w => ?_) paired.length paired.related
  rw [Route.matchers_applyAll, ← inherited]
  exact Settings.accrued_insertAll (inherited ▸ ranked) _

theorem opened {inherited : List Matcher} (ranked : Matcher.Ranked inherited) {s : Settings}
    (h : s.matchers = inherited) (scope : ScopeId) :
    (Ledger.opened inherited).Describes (.ofSettings s scope) :=
  of_paired ranked h ⟨rfl, nofun⟩

theorem ranked (h : ledger.Describes router) : Matcher.Ranked ledger.inherited := by
  cases h
  assumption

theorem draft (h : ledger.Describes router) (steps : List RouteStep) (w : Workshop) :
    Settings.Accrued ledger.inherited (Route.addedAll steps router.draft w)
      (Route.applyAll steps router.draft w).1.2.settings.matchers := by
  cases h with
  | intro _ _ drafts _ _ => exact drafts steps w

/-- A change of one route and its entry. -/
theorem update (h : ledger.Describes router) (place : Nat)
    {change : Route → Build (Except Error Unit × Route)} {note : Entry → Route → Entry}
    {w : Workshop} (hc : ∀ entry route, Entry.Describes ledger.inherited entry route →
      Entry.Describes ledger.inherited (note entry route) (change route w).1.2) :
    (ledger.update place router note).Describes (router.update place change w).1.2 := by
  obtain ⟨ranked, inherited, -, length, routes⟩ := h
  cases hr : router.routes[place]? with
  | none =>
    rw [Router.update_of_none hr, Ledger.update, hr]
    exact of_paired ranked inherited ⟨length, routes⟩
  | some route =>
    rw [Router.update_of_some hr, Ledger.update, hr]
    exact of_paired ranked inherited
      (Paired.modify ⟨length, routes⟩ hr fun entry he => hc entry route he)

theorem configure (h : ledger.Describes router) (step : RouterStep) :
    ledger.Describes (router.apply step) := by
  obtain ⟨ranked, inherited, -, length, routes⟩ := h
  have hm := Router.matchers_call (.configure step) router .initial
  have hr : (router.apply step).routes = router.routes := by cases step <;> rfl
  exact of_paired ranked (hm.trans inherited) ⟨hr ▸ length, hr ▸ routes⟩

theorem add (h : ledger.Describes router) {entry : Entry} {route : Route}
    (he : Entry.Describes ledger.inherited entry route) :
    Ledger.Describes { ledger with entries := ledger.entries ++ [entry] } (router.add route) := by
  obtain ⟨ranked, inherited, -, length, routes⟩ := h
  exact of_paired ranked inherited (Paired.concat ⟨length, routes⟩ he)

theorem register (h : ledger.Describes router) (steps : List RouteStep) (w : Workshop) :
    (ledger.record (.register steps) router w).Describes (router.register steps w).1.2 := by
  have ha := h.draft steps w
  have hg := Route.applyAll_grows steps router.draft w
  simp only [record, Router.register]
  generalize Route.applyAll steps router.draft w = result at ha hg
  obtain ⟨⟨answer, route⟩, after⟩ := result
  cases answer with
  | error e => exact h
  | ok _ => exact h.add (.leaf ha hg.subrouter)

/-- The ledger after a call describes the tree after it, whether the call fails or not. -/
theorem call (c : Call) (h : ledger.Describes router) (w : Workshop) :
    (ledger.record c router w).Describes (router.call c w).1.2 := by
  induction c generalizing ledger router w with
  | configure step => exact h.configure step
  | register steps => exact h.register steps w
  | route place step =>
    exact h.update place fun entry route he =>
      he.add h.ranked (Route.apply_grows step route w).subrouter (Route.matchers_apply step route w)
  | delegate place =>
    -- The new router begins with the settings of the route, whose matchers are sorted by now.
    refine h.update place fun entry route he => he.setBelow (opened (Matcher.ranked_byRank _) ?_ _)
    exact he.accrued.sorted
  | inside place c ih =>
    refine h.update place fun entry route he => ?_
    cases he with
    | leaf ha hn =>
      rw [Route.callBelow_of_none hn]
      exact .leaf ha hn
    | @delegating _ own _ below child ha hc deeper =>
      rw [Route.callBelow_of_some hc, hc]
      exact .delegating ha rfl (ih deeper w)

theorem callAll (calls : List Call) (h : ledger.Describes router) (w : Workshop) :
    (ledger.recordAll calls router w).Describes (Router.after calls router w) := by
  induction calls generalizing ledger router w with
  | nil => exact h
  | cons c rest ih => exact ih (h.call c w) _

end Ledger.Describes

/-- Whatever calls are made on a new router, the matchers of every route in the tree are those with
which its router began and those that its own calls added, in the order of the calls, sorted by rank
without changing the order of those of one rank.  None is lost, none is there twice, and each was put
at the place that a binary search found in a list on which it may be used. -/
theorem Ledger.describes_after (calls : List Call) (scope : ScopeId) (w : Workshop) :
    (Ledger.recordAll (.opened []) calls (.ofSettings .initial scope) w).Describes
      (Router.after calls (.ofSettings .initial scope) w) :=
  (Ledger.Describes.opened List.Pairwise.nil rfl scope).callAll calls w

def scrambled : List Call :=
  [.register [.methods [.get], .path "/a/{x}".toList],
    .route 0 (.queries ["q".toList, "{y}".toList, "r".toList, "{x}".toList]),
    .route 0 (.headers ["h".toList, []]), .delegate 0,
    .inside 0 (.register [.custom fun _ => true, .schemes ["http".toList], .path "/b".toList]),
    .register [.methods [.get], .path "no slash".toList]]

example : ((Ledger.recordAll (.opened []) scrambled (.ofSettings .initial 0) .initial).entries.map
    fun entry => (entry.own.map Matcher.rank,
      entry.below?.map fun below => below.entries.map (·.own.map Matcher.rank)))
    = [([6, 2, 4, 3], some [[5, 0, 2]])] := by decide +kernel

example : ((Router.after scrambled (.ofSettings .initial 0) .initial).routes.map
    fun route => (route.settings.matchers.map Matcher.rank,
      route.subrouter?.map fun child => child.routes.map (·.settings.matchers.map Matcher.rank)))
    = [([2, 3, 4, 6], some [[0, 2, 2, 3, 4, 5, 6]])] := by decide +kernel

end HttpRouter
