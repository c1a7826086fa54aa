import HttpRouter.Proofs.Http.CleanPath
import HttpRouter.Proofs.Router.FirstMatch
import HttpRouter.Proofs.Router.History

set_option autoImplicit false

/-!
# Chains of redirects

A redirect leads to the clean form of the path or, from a clean path, to the one with its slash at
the end turned.  A chain of redirects therefore ends after two of them, or it goes to and fro
between two paths for ever.  It does the latter if the routes on both sides ask for the other side,
and at the root, whose slash is put back by cleaning.
-/
namespace HttpRouter

namespace Settings

theorem cut_withQuery {path : Text} (h : '?' ∉ path) (query : Text) :
    Text.cut '?' (withQuery path query) = (path, query) := by
  unfold withQuery
  cases query with
  | nil => exact Text.cut_of_not_mem h
  | cons c rest => exact Text.cut_eq h (c :: rest)

theorem slashRedirect?_eq_some (s : Settings) (request : Request) (location : Text) :
    s.slashRedirect? request = some location ↔
      (∃ pattern wanted, s.path = some pattern ∧ pattern.wantsSlash? = some wanted ∧
        wanted ≠ Text.endsWith request.path '/') ∧
      location = withQuery (Path.turn request.path) request.query := by
  cases hp : s.path with
  | none =>
    have hn : s.slashRedirect? request = none := by
      unfold slashRedirect?
      rw [hp]
      rfl
    simp [hn]
  | some pattern =>
    cases hw : pattern.wantsSlash? with
    | none =>
      have hn : s.slashRedirect? request = none := by
        unfold slashRedirect?
        rw [hp, Option.bind_eq_bind, Option.bind_some, hw]
        rfl
      simp [hn, hw]
    | some wanted =>
      have hg : s.slashRedirect? request = if wanted ≠ Text.endsWith request.path '/' then
          some (withQuery (Path.turn request.path) request.query) else none := by
        unfold slashRedirect? Path.turn
        rw [hp, Option.bind_eq_bind, Option.bind_some, hw]
        cases wanted <;> cases Text.endsWith request.path '/' <;> rfl
      rw [hg]
      constructor
      · intro h
        split at h
        · rename_i hd
          exact ⟨⟨pattern, wanted, rfl, hw, hd⟩, (Option.some.inj h).symm⟩
        · cases h
      · rintro ⟨⟨pattern', wanted', hp', hw', hd⟩, rfl⟩
        cases hp'
        cases hw.symm.trans hw'
        rw [if_pos hd]

end Settings

def Outcome.isRedirect : Outcome → Bool
  | redirect _ _ => true
  | _ => false

namespace Request

def make (method : Method) (target : Text) (host scheme : Option Text) (headers : Headers)
    (body : Bytes) : Request :=
  { new method target with host, scheme, headers, body }

def follow (request : Request) (location : Text) : Request :=
  let target := new request.method location
  { request with path := target.path, query := target.query }

theorem follow_withQuery (request : Request) {path : Text} (h : '?' ∉ path) :
    request.follow (Settings.withQuery path request.query) = { request with path } := by
  simp only [follow, new]
  rw [Settings.cut_withQuery h]

def cleaned (request : Request) : Request := { request with path := Path.clean request.path }

def turned (request : Request) : Request := { request with path := Path.turn request.path }

theorem turned_turned {request : Request} (hc : Path.clean request.path = request.path)
    (hp : request.path ≠ ['/']) : request.turned.turned = request := by
  rw [turned, turned, (Path.turn_of_clean hc hp).2]

end Request

namespace Router

def next? (router : Router) (request : Request) : Option Request :=
  match router.resolve request with
  | .redirect location _ => some (request.follow location)
  | _ => none

def chase (router : Router) : Nat → Request → Option Request
  | 0, request => some request
  | n + 1, request =>
    match router.next? request with
    | some next => router.chase n next
    | none => none

def EndsAfter (router : Router) (request : Request) (n : Nat) : Prop :=
  ∃ last, router.chase n request = some last ∧ (router.resolve last).isRedirect = false

theorem next?_eq_none (router : Router) (request : Request) :
    router.next? request = none ↔ (router.resolve request).isRedirect = false := by
  unfold next?
  cases router.resolve request <;> simp [Outcome.isRedirect]

/-- A chain that never ends, or else ends after a number of redirects that is within the limit. -/
def Decided (router : Router) (request : Request) (endless : Bool) (limit : Nat) : Prop :=
  if endless then ∀ n, ¬ router.EndsAfter request n
  else ∃ n ≤ limit, ∀ m, router.EndsAfter request m ↔ m = n

section
variable {router : Router} {a b : Request}

theorem decided_of_last (h : router.next? a = none) : router.Decided a false 0 := by
  refine ⟨0, Nat.le_refl 0, fun m => ?_⟩
  cases m with
  | zero => simpa [EndsAfter, chase] using (next?_eq_none router a).1 h
  | succ m => simp [EndsAfter, chase, h]

theorem endsAfter_iff (h : router.next? a = some b) (n : Nat) :
    router.EndsAfter a n ↔ ∃ m, n = m + 1 ∧ router.EndsAfter b m := by
  cases n with
  | zero =>
    have hr : (router.resolve a).isRedirect ≠ false := by
      rw [Ne, ← next?_eq_none, h]
      exact nofun
    simp [EndsAfter, chase, hr]
  | succ n => simp [EndsAfter, chase, h]

theorem decided_of_next {endless : Bool} {limit : Nat} (h : router.next? a = some b)
    (hb : router.Decided b endless limit) : router.Decided a endless (limit + 1) := by
  cases endless with
  | true =>
    intro n hn
    obtain ⟨m, -, hm⟩ := (endsAfter_iff h n).1 hn
    exact hb m hm
  | false =>
    obtain ⟨n, hn, hm⟩ := hb
    refine ⟨n + 1, by omega, fun m => ?_⟩
    rw [endsAfter_iff h]
    constructor
    · rintro ⟨k, rfl, hk⟩
      rw [(hm k).1 hk]
    · rintro rfl
      exact ⟨n, rfl, (hm n).2 rfl⟩

theorem decided_le {endless : Bool} {limit more : Nat} (h : router.Decided a endless limit)
    (hl : limit ≤ more) : router.Decided a endless more := by
  cases endless with
  | true => exact h
  | false =>
    obtain ⟨n, hn, hm⟩ := h
    exact ⟨n, by omega, hm⟩

theorem not_endsAfter_of_alternating (n : Nat) (ha : router.next? a = some b)
    (hb : router.next? b = some a) : ¬ router.EndsAfter a n := by
  induction n generalizing a b with
  | zero =>
    rw [endsAfter_iff ha]
    rintro ⟨m, hm, -⟩
    cases hm
  | succ n ih =>
    rw [endsAfter_iff ha]
    rintro ⟨m, hm, he⟩
    cases hm
    exact ih hb ha he

end

def turns (router : Router) (request : Request) : Bool :=
  match (Router.leaves router).find? (·.accepts request) with
  | some leaf => (leaf.route.settings.slashRedirect? request).isSome
  | none => false

/-- Whether a request on a clean path is sent to a path from which it is sent back. -/
def opposed (router : Router) (request : Request) : Bool :=
  router.turns request && (request.path == ['/'] || router.turns request.turned)

section
variable {router : Router} {request : Request}

theorem next?_of_unclean (hs : router.settings.skipClean = false) (hq : '?' ∉ request.path)
    (hc : Path.clean request.path ≠ request.path) :
    router.next? request = some request.cleaned := by
  have hr : router.resolve request
      = .redirect (Settings.withQuery (Path.clean request.path) request.query) none := by
    simp [resolve, hs, hc]
  rw [next?, hr]
  exact congrArg some (request.follow_withQuery (Path.not_mem_clean (by decide) hq))

theorem next?_of_clean (router : Router) (hq : '?' ∉ request.path)
    (hc : Path.clean request.path = request.path) :
    router.next? request = if router.turns request then some request.turned else none := by
  rw [next?, resolve_of_clean (.inr hc), turns]
  rcases isFirst_or_missed request router with ⟨leaf, hl⟩ | ⟨hm, hf⟩
  · obtain ⟨handler, vars, hr⟩ := scan_of_isFirst hl
    rw [hr, (Leaf.isFirst_iff request router leaf).1 hl]
    cases ho : leaf.route.settings.slashRedirect? request with
    | none => simp [ho]
    | some location =>
      have hf : request.follow location = request.turned := by
        rw [((Settings.slashRedirect?_eq_some _ _ _).1 ho).2]
        exact request.follow_withQuery (Path.not_mem_turn (by decide) hq)
      simp [ho, hf]
  · have hn : (Router.leaves router).find? (·.accepts request) = none := by
      simpa using hm
    rw [hn]
    cases hr : router.scan request <;> simp_all [Outcome.isFound]

/-- On a clean path a chain ends after one redirect at most, unless the request is sent back. -/
theorem decided_of_clean (hs : router.settings.skipClean = false) (hq : '?' ∉ request.path)
    (hc : Path.clean request.path = request.path) :
    router.Decided request (router.opposed request) 1 := by
  have hfirst := next?_of_clean router hq hc
  cases ht : router.turns request with
  | false =>
    rw [ht] at hfirst
    rw [opposed, ht, Bool.false_and]
    exact decided_le (decided_of_last hfirst) (Nat.zero_le 1)
  | true =>
    rw [ht, if_pos rfl] at hfirst
    by_cases hp : request.path = ['/']
    · -- The turned root is empty, and cleaning makes it the root again.
      have he : request.turned.path = [] := by
        rw [Request.turned, hp]
        rfl
      have hback : router.next? request.turned = some request := by
        rw [next?_of_unclean hs (by simp [he]) (by rw [he]; decide), Request.cleaned, he,
          Request.turned]
        exact congrArg (fun path => some { request with path }) hp.symm
      rw [opposed, ht, hp, beq_self_eq_true, Bool.true_or, Bool.and_self]
      exact fun n => not_endsAfter_of_alternating n hfirst hback
    · obtain ⟨hcl, -⟩ := Path.turn_of_clean hc hp
      have hn : '?' ∉ request.turned.path := Path.not_mem_turn (by decide) hq
      have hsecond := next?_of_clean router hn hcl
      have hpb : (request.path == ['/']) = false := by simpa using hp
      rw [opposed, ht, hpb, Bool.false_or, Bool.true_and]
      cases hb : router.turns request.turned with
      | false =>
        rw [hb] at hsecond
        exact decided_of_next hfirst (decided_of_last hsecond)
      | true =>
        rw [hb, if_pos rfl, Request.turned_turned hc hp] at hsecond
        exact fun n => not_endsAfter_of_alternating n hfirst hsecond

theorem decided (hs : router.settings.skipClean = false) (hq : '?' ∉ request.path) :
    router.Decided request (router.opposed request.cleaned) 2 := by
  by_cases hc : Path.clean request.path = request.path
  · have he : request.cleaned = request := by rw [Request.cleaned, hc]
    rw [he]
    exact decided_le (decided_of_clean hs hq hc) (by omega)
  · have hn : '?' ∉ request.cleaned.path := Path.not_mem_clean (by decide) hq
    exact decided_of_next (next?_of_unclean hs hq hc)
      (decided_of_clean hs hn (Path.clean_clean request.path))

end

/-- With cleaning on, a chain of redirects ends exactly if its first clean path is not one of two
that are sent to each other, and then it has two redirects at most. -/
theorem redirects_end (router : Router) (hs : router.settings.skipClean = false) (method : Method)
    (target : Text) (host scheme : Option Text) (headers : Headers) (body : Bytes) :
    ((∃ n, router.EndsAfter (.make method target host scheme headers body) n) ↔
      router.opposed (Request.make method target host scheme headers body).cleaned = false) ∧
    ∀ n, router.EndsAfter (.make method target host scheme headers body) n → n ≤ 2 := by
  have hq : '?' ∉ (Request.make method target host scheme headers body).path :=
    Text.not_mem_cut '?' target
  have hd := decided hs hq
  cases ho : router.opposed (Request.make method target host scheme headers body).cleaned with
  | true =>
    rw [ho] at hd
    refine ⟨iff_of_false ?_ nofun, fun n hn => absurd hn (hd n)⟩
    rintro ⟨n, hn⟩
    exact hd n hn
  | false =>
    rw [ho] at hd
    obtain ⟨n, hn, hm⟩ := hd
    refine ⟨iff_of_true ⟨n, (hm n).2 rfl⟩ rfl, fun m he => ?_⟩
    rw [(hm m).1 he]
    exact hn

def seesaw : Router :=
  (callAll
    [.configure (.strictSlash true),
     .register [.pathStart "/a/".toList],
     .delegate 0,
     .inside 0 (.register [.path [], .handler .notFound]),
     .register [.path "/a/".toList, .handler .notFound]]
    (.ofSettings .initial 0) .initial).1.2

def rootless : Router :=
  (callAll
    [.configure (.strictSlash true), .register [.path [], .handler .notFound]]
    (.ofSettings .initial 0) .initial).1.2

theorem redirects_can_alternate :
    (seesaw.Reachable ∧ seesaw.settings.skipClean = false ∧
      ∀ n, ¬ seesaw.EndsAfter (Request.get "/a/".toList) n) ∧
    (rootless.Reachable ∧ rootless.settings.skipClean = false ∧
      ∀ n, ¬ rootless.EndsAfter (Request.get "/".toList) n) := by
  refine ⟨⟨⟨0, _, .initial, rfl⟩, by decide +kernel, fun n => ?_⟩,
    ⟨⟨0, _, .initial, rfl⟩, by decide +kernel, fun n => ?_⟩⟩
  · have there : seesaw.next? (Request.get "/a/".toList) = some (Request.get "/a".toList) := by
      decide +kernel
    have back : seesaw.next? (Request.get "/a".toList) = some (Request.get "/a/".toList) := by
      decide +kernel
    exact not_endsAfter_of_alternating n there back
  · have there : rootless.next? (Request.get "/".toList) = some (Request.get []) := by
      decide +kernel
    have back : rootless.next? (Request.get []) = some (Request.get "/".toList) := by
      decide +kernel
    exact not_endsAfter_of_alternating n there back

theorem seesaw_redirects :
    seesaw.settings.skipClean = false ∧
      (∃ n, seesaw.EndsAfter (.make .get "/b//../c".toList none none [] []) n) ∧
      ¬ ∃ n, seesaw.EndsAfter (.make .get "/b/../a?x".toList none none [] []) n := by
  have hs : seesaw.settings.skipClean = false := by decide +kernel
  refine ⟨hs, ?_, ?_⟩
  · rw [(redirects_end seesaw hs .get "/b//../c".toList none none [] []).1]
    decide +kernel
  · rw [(redirects_end seesaw hs .get "/b/../a?x".toList none none [] []).1]
    decide +kernel

end Router
end HttpRouter
