import HttpRouter.Proofs.Pattern.Queries
import HttpRouter.Proofs.Route.Moves

set_option autoImplicit false

namespace HttpRouter.Route

variable {route next : Route} {w after : Workshop} {key value : Text}

theorem query_of_apply (h : Route.apply (.queries [key, value]) route w = ((.ok (), next), after)) :
    ∃ p, Pattern.compile (key ++ '=' :: value) .query route.settings.strictSlash
        route.settings.compiler w = (.ok p, after) ∧
      next.settings.matchers = (Matcher.query p).insertByRank route.settings.matchers := by
  have hpair : pairUp [key, value] = .ok [(key, value)] := by simp [pairUp, pairUp.pairs]
  simp only [Route.apply, withPairs, hpair, addQueries, addPattern] at h
  cases hs : route.settings.addPattern (key ++ '=' :: value) .query w with
  | mk answer w' =>
    rw [hs] at h
    cases answer with
    | error e => cases h
    | ok settings =>
      cases h
      obtain ⟨full, p, hf, hp, -, rfl⟩ := Settings.exists_of_addPattern hs
      obtain rfl : key ++ '=' :: value = full := Except.ok.inj hf
      obtain ⟨-, hk, -⟩ := Pattern.labelled_of_compile hp
      refine ⟨p, hp, ?_⟩
      change (route.settings.adopt p).matchers = _
      rw [Settings.adopt, hk]
      rfl

/-- The matcher for a literal value asks for it as the first value of its key, or for a value that
goes on behind it if it ends with an equals sign. -/
theorem literal_query (hk : key.Braceless) (he : '=' ∉ key) (hv : value.Braceless)
    (hn : value ≠ []) (hc : route.settings.compiler.Faithful w)
    (h : Route.apply (.queries [key, value]) route w = ((.ok (), next), after)) :
    ∃ p, next.settings.matchers = (Matcher.query p).insertByRank route.settings.matchers ∧
      ∀ request : Request,
        (Text.endsWith value '=' = false →
          (Matcher.query p).Asks request (Query.IsFirst key value request.queryPairs)) ∧
        (Text.endsWith value '=' = true →
          (Matcher.query p).Asks request
            (∃ extra, '\n' ∉ extra ∧ Query.IsFirst key (value ++ extra) request.queryPairs)) := by
  obtain ⟨p, hp, hm⟩ := query_of_apply h
  have hcompiled : Pattern.compiled (key ++ '=' :: value) .query route.settings.strictSlash
      = .ok p := by
    rw [← (Pattern.compile_of_faithful hc _ .query _).1, hp]
  have hends : Text.endsWith (key ++ '=' :: value) '=' = Text.endsWith value '=' := by
    have ha := Text.endsWith_append_of_ne_nil hn (key ++ ['=']) '='
    rwa [List.append_assoc] at ha
  refine ⟨p, hm, fun request => ?_⟩
  have hasks := Matcher.asks_literal hk he hv hcompiled request
  rw [hends] at hasks
  constructor
  · intro hl
    refine hasks.congr ?_
    simp [hl, Regex.completes]
  · intro hl
    refine hasks.congr (exists_congr fun extra => ?_)
    cases extra <;> simp [hl, Regex.completes, and_comm]

def unconfigured : Route := Route.ofSettings .initial

/-- The dot is no expression for any character, and later values of the key do not count. -/
theorem dotted_query :
    ∃ next after p,
      Route.apply (.queries ["k".toList, "a.c".toList]) unconfigured .initial
        = ((.ok (), next), after) ∧
      next.settings.matchers = [.query p] ∧
      (Matcher.query p).evaluate (.get "/?x=1&k=a.c&k=b".toList) .empty = .matched .empty ∧
      (Matcher.query p).evaluate (.get "/?k=abc&k=a.c".toList) .empty = .rejected := by
  obtain ⟨next, after, ha⟩ : ∃ next after,
      Route.apply (.queries ["k".toList, "a.c".toList]) unconfigured .initial
        = ((.ok (), next), after) := ⟨_, _, rfl⟩
  have hs : unconfigured.settings.compiler.Faithful .initial := trivial
  obtain ⟨p, hm, hp⟩ := literal_query (by decide) (by decide) (by decide) (by decide) hs ha
  refine ⟨next, after, p, ha, hm, ?_, ?_⟩
  · exact ((hp _).1 (by decide) .empty).1 (by decide +kernel)
  · exact ((hp _).1 (by decide) .empty).2 (by decide +kernel)

/-- A longer value than the one asked for is accepted behind its equals sign. -/
theorem value_goes_on :
    ∃ next after p,
      Route.apply (.queries ["k".toList, "a=".toList]) unconfigured .initial
        = ((.ok (), next), after) ∧
      next.settings.matchers = [.query p] ∧
      (Matcher.query p).evaluate (.get "/?k=a%3Db".toList) .empty = .matched .empty ∧
      ¬ Query.IsFirst "k".toList "a=".toList (Request.get "/?k=a%3Db".toList).queryPairs := by
  exact ⟨_, _, _, rfl, rfl, by decide +kernel, by decide +kernel⟩

/-- The matcher for an empty value asks for the key only, whatever its value, unless that goes on in
another line. -/
theorem query_for_any_value (hk : key.Braceless) (he : '=' ∉ key)
    (hc : route.settings.compiler.Faithful w)
    (h : Route.apply (.queries [key, []]) route w = ((.ok (), next), after)) :
    ∃ p, next.settings.matchers = (Matcher.query p).insertByRank route.settings.matchers ∧
      ∀ request : Request,
        ((∀ value, Query.IsFirst key value request.queryPairs → '\n' ∉ value) →
          (Matcher.query p).Asks request (key ∈ request.queryPairs.map Prod.fst)) ∧
        ((∃ value, Query.IsFirst key value request.queryPairs ∧ '\n' ∈ value) →
          (Matcher.query p).Asks request False) := by
  obtain ⟨p, hp, hm⟩ := query_of_apply h
  have hcompiled : Pattern.compiled (key ++ ['=']) .query route.settings.strictSlash = .ok p := by
    rw [← (Pattern.compile_of_faithful hc _ .query _).1, hp]
  refine ⟨p, hm, fun request => ?_⟩
  have hasks : (Matcher.query p).Asks request
      (∃ value, Query.IsFirst key value request.queryPairs ∧ '\n' ∉ value) := by
    refine (Matcher.asks_literal hk he (by simp [Text.Braceless]) hcompiled request).congr
      (exists_congr fun value => ?_)
    have hends : Text.endsWith (key ++ ['=']) '=' = true :=
      Text.endsWith_append_of_ne_nil (by simp) key '='
    cases value <;> simp [hends, Regex.completes]
  constructor
  · intro hline
    refine hasks.congr (Iff.trans (exists_congr fun value => ?_) Query.exists_isFirst_iff)
    exact and_iff_left_of_imp (hline value)
  · rintro ⟨value, hfirst, hline⟩
    refine hasks.congr (iff_of_false ?_ id)
    -- The first value is unique, so none without a line feed is left.
    rintro ⟨other, hother, hfree⟩
    have hsame := (Query.first?_eq_some_iff.2 hother).symm.trans (Query.first?_eq_some_iff.2 hfirst)
    exact hfree (Option.some.inj hsame ▸ hline)

/-- A key without any value is enough, and a key that only begins in the same way is not. -/
theorem bare_key_query :
    ∃ next after p,
      Route.apply (.queries ["k".toList, []]) unconfigured .initial = ((.ok (), next), after) ∧
      next.settings.matchers = [.query p] ∧
      (Matcher.query p).evaluate (.get "/?x=1&k".toList) .empty = .matched .empty ∧
      (Matcher.query p).evaluate (.get "/?x=k&kk=1".toList) .empty = .rejected := by
  obtain ⟨next, after, ha⟩ : ∃ next after,
      Route.apply (.queries ["k".toList, []]) unconfigured .initial = ((.ok (), next), after) :=
    ⟨_, _, rfl⟩
  have hs : unconfigured.settings.compiler.Faithful .initial := trivial
  obtain ⟨p, hm, hp⟩ := query_for_any_value (by decide) (by decide) hs ha
  refine ⟨next, after, p, ha, hm, ?_, ?_⟩
  · refine (((hp _).1 fun value hfirst => ?_) .empty).1 (by decide +kernel)
    rw [← Query.first?_eq_some_iff] at hfirst
    obtain rfl : [] = value := Option.some.inj hfirst
    decide
  · refine (((hp _).1 fun value hfirst => ?_) .empty).2 (by decide +kernel)
    rw [← Query.first?_eq_some_iff] at hfirst
    cases hfirst

/-- A value with a line feed is one that the matcher for any value rejects. -/
theorem value_in_two_lines :
    ∃ next after p,
      Route.apply (.queries ["k".toList, []]) unconfigured .initial = ((.ok (), next), after) ∧
      next.settings.matchers = [.query p] ∧
      "k".toList ∈ (Request.get "/?k=a%0Ab".toList).queryPairs.map Prod.fst ∧
      (Matcher.query p).evaluate (.get "/?k=a%0Ab".toList) .empty = .rejected :=
  ⟨_, _, _, rfl, rfl, by decide +kernel, by decide +kernel⟩

end HttpRouter.Route
