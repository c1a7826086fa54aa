import HttpRouter.Http.Headers

set_option autoImplicit false

namespace HttpRouter

theorem Text.sameName_iff {a b : Text} : Text.sameName a b = true ↔ Text.lower a = Text.lower b :=
  beq_iff_eq

theorem Text.sameName_self (a : Text) : Text.sameName a a = true := Text.sameName_iff.2 rfl

theorem Text.sameName_comm (a b : Text) : Text.sameName a b = Text.sameName b a :=
  Bool.eq_iff_iff.2 (by rw [Text.sameName_iff, Text.sameName_iff]; exact eq_comm)

theorem Text.sameName_congr {a b : Text} (h : Text.sameName a b = true) (c : Text) :
    Text.sameName c a = Text.sameName c b := by
  rw [sameName, sameName, Text.sameName_iff.1 h]

namespace Headers

section
variable (headers : Headers) (name value : Text)

def under : Headers := headers.filter fun header => Text.sameName header.1 name

def apartFrom : Headers := headers.filter fun header => !Text.sameName header.1 name

theorem set_eq : headers.set name value = headers.apartFrom name ++ [(name, value)] := rfl

theorem get?_eq : headers.get? name = (headers.under name).head?.map (·.2) := by
  rw [get?, under, List.head?_filter]

theorem under_congr {name other : Text} (h : Text.sameName name other = true) :
    headers.under name = headers.under other := by
  simp only [under, Text.sameName_congr h]

theorem under_set : (headers.set name value).under name = [(name, value)] := by
  simp [set_eq, under, apartFrom, List.filter_filter, Text.sameName_self]

theorem under_set_of_ne {name other : Text} (h : Text.sameName other name = false) :
    (headers.set name value).under other = headers.under other := by
  have apart : ∀ key, Text.sameName key other = true → Text.sameName key name = false := by
    intro key hk
    rw [Bool.eq_false_iff, Ne, Text.sameName_iff] at h ⊢
    exact fun hn => h ((Text.sameName_iff.1 hk).symm.trans hn)
  have kept : (headers.apartFrom name).under other = headers.under other := by
    rw [under, apartFrom, List.filter_filter]
    refine List.filter_congr fun header _ => ?_
    cases hk : Text.sameName header.1 other with
    | false => rfl
    | true => rw [apart header.1 hk]; rfl
  have added : under [(name, value)] other = [] := by
    refine List.filter_eq_nil_iff.2 fun header hm hk => ?_
    rw [List.mem_singleton.1 hm] at hk
    exact absurd ((Text.sameName_self name).symm.trans (apart name hk)) nofun
  calc (headers.set name value).under other
      = (headers.apartFrom name).under other ++ under [(name, value)] other :=
        List.filter_append ..
    _ = headers.under other := by rw [kept, added, List.append_nil]

theorem apartFrom_set : (headers.set name value).apartFrom name = headers.apartFrom name := by
  simp [set_eq, apartFrom, List.filter_filter, Text.sameName_self]

/-- What is looked up after `set` is the new value or what was there before. -/
theorem get?_set (other : Text) : (headers.set name value).get? other
    = if Text.sameName other name then some value else headers.get? other := by
  rw [get?_eq, get?_eq]
  cases h : Text.sameName other name with
  | true => rw [under_congr _ h, under_set]; rfl
  | false => rw [under_set_of_ne headers value h]; rfl

end

def Distinct (headers : Headers) : Prop :=
  headers.Pairwise fun first later => Text.sameName first.1 later.1 = false

section
variable {headers : Headers}

theorem Distinct.set (h : headers.Distinct) (name value : Text) :
    (headers.set name value).Distinct := by
  refine List.pairwise_append.2 ⟨h.filter _, List.pairwise_singleton _ _, ?_⟩
  intro header hm added ha
  rw [List.mem_singleton.1 ha]
  simpa using (List.mem_filter.1 hm).2

/-- Where names are distinct, the header that has a name is found wherever it stands. -/
theorem Distinct.get?_eq_some_iff (h : headers.Distinct) {name value : Text} :
    headers.get? name = some value ↔
      ∃ key, (key, value) ∈ headers ∧ Text.sameName key name = true := by
  induction headers with
  | nil => simp [get?]
  | cons first rest ih =>
    obtain ⟨hf, hr⟩ := List.pairwise_cons.1 h
    cases hs : Text.sameName first.1 name with
    | true =>
      have alone : ∀ key, (key, value) ∈ rest → Text.sameName key name = false := by
        intro key hm
        have hk := hf (key, value) hm
        rw [Text.sameName_comm, Text.sameName_congr hs] at hk
        exact hk
      simp only [get?, List.find?_cons, hs, Option.map_some, Option.some.injEq, List.mem_cons]
      constructor
      · rintro rfl
        exact ⟨first.1, .inl rfl, hs⟩
      · rintro ⟨key, rfl | hm, hk⟩
        · rfl
        · exact absurd (hk.symm.trans (alone key hm)) nofun
    | false =>
      have hg : get? (first :: rest) name = get? rest name := by simp [get?, hs]
      rw [hg, ih hr]
      constructor
      · rintro ⟨key, hm, hk⟩
        exact ⟨key, List.mem_cons_of_mem first hm, hk⟩
      · rintro ⟨key, hm, hk⟩
        rcases List.mem_cons.1 hm with rfl | hm
        · exact absurd (hk.symm.trans hs) nofun
        · exact ⟨key, hm, hk⟩

/-- The order in which distinct headers are kept makes no difference. -/
theorem Distinct.get?_perm {shuffled : Headers} (h : headers.Distinct)
    (hp : shuffled.Perm headers) (name : Text) : shuffled.get? name = headers.get? name := by
  have hs : shuffled.Distinct := (hp.pairwise_iff fun hxy => by rwa [Text.sameName_comm]).2 h
  refine Option.ext fun value => ?_
  rw [hs.get?_eq_some_iff, h.get?_eq_some_iff]
  simp only [hp.mem_iff]

def setAll (headers : Headers) (writes : List (Text × Text)) : Headers :=
  writes.foldl (fun headers written => headers.set written.1 written.2) headers

theorem Distinct.setAll (h : headers.Distinct) (writes : List (Text × Text)) :
    (headers.setAll writes).Distinct := by
  induction writes generalizing headers with
  | nil => exact h
  | cons written rest ih => exact ih (h.set written.1 written.2)

end

def last? (writes : List (Text × Text)) (name : Text) : Option Text :=
  (writes.reverse.find? fun written => Text.sameName written.1 name).map (·.2)

theorem last?_cons (written : Text × Text) (rest : List (Text × Text)) (name : Text) :
    last? (written :: rest) name = (last? rest name).or
      (if Text.sameName written.1 name then some written.2 else none) := by
  rw [last?, List.reverse_cons, List.find?_append, Option.map_or]
  cases h : Text.sameName written.1 name <;> simp [last?, h]

theorem get?_setAll (writes : List (Text × Text)) (headers : Headers) (name : Text) :
    (headers.setAll writes).get? name = (last? writes name).or (headers.get? name) := by
  induction writes generalizing headers with
  | nil => rfl
  | cons written rest ih =>
    change ((headers.set written.1 written.2).setAll rest).get? name = _
    rw [ih, get?_set, last?_cons, Option.or_assoc, Text.sameName_comm]
    cases Text.sameName written.1 name <;> rfl

end Headers
end HttpRouter
