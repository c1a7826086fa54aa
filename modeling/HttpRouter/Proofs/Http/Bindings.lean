import HttpRouter.Http.Vars

set_option autoImplicit false

namespace HttpRouter

namespace Vars

def names (vars : Vars) : List Text := vars.entries.map Prod.fst

def insertAll (vars : Vars) (bindings : List (Text × Text)) : Vars :=
  bindings.foldl (fun vars (name, value) => vars.insert name value) vars

theorem mem_names_insert {vars : Vars} {name value other : Text} :
    other ∈ (vars.insert name value).names ↔ other = name ∨ other ∈ vars.names := by
  by_cases h : other = name <;> simp [names, insert, h]

theorem mem_names_insertAll {vars : Vars} {bindings : List (Text × Text)} {name : Text} :
    name ∈ (vars.insertAll bindings).names ↔ name ∈ bindings.map Prod.fst ∨ name ∈ vars.names := by
  induction bindings generalizing vars with
  | nil => simp [insertAll]
  | cons binding rest ih =>
    obtain ⟨key, value⟩ := binding
    have hi : vars.insertAll ((key, value) :: rest) = (vars.insert key value).insertAll rest := rfl
    rw [hi, ih, mem_names_insert, List.map_cons, List.mem_cons]
    constructor
    · rintro (h | h | h)
      · exact .inl (.inr h)
      · exact .inl (.inl h)
      · exact .inr h
    · rintro ((h | h) | h)
      · exact .inr (.inl h)
      · exact .inl h
      · exact .inr (.inr h)

theorem entries_insertAll (new old : List (Text × Text)) (bindings : List (Text × Text)) :
    (insertAll ⟨new ++ old⟩ bindings).entries = (insertAll ⟨new⟩ bindings).entries
      ++ old.filter fun entry => !(bindings.map Prod.fst).contains entry.1 := by
  induction bindings generalizing new old with
  | nil =>
    have hf : (old.filter fun _ => true) = old := List.filter_eq_self.2 fun _ _ => rfl
    exact congrArg (new ++ ·) hf.symm
  | cons binding rest ih =>
    obtain ⟨name, value⟩ := binding
    have hi : insertAll ⟨new ++ old⟩ ((name, value) :: rest)
        = insertAll ⟨((name, value) :: new.filter fun entry => entry.1 != name)
          ++ old.filter fun entry => entry.1 != name⟩ rest := by
      simp [insertAll, insert]
    have hn : insertAll ⟨new⟩ ((name, value) :: rest)
        = insertAll ⟨(name, value) :: new.filter fun entry => entry.1 != name⟩ rest := rfl
    rw [hi, hn, ih, List.filter_filter]
    congr 1
    apply List.filter_congr
    intro entry _
    simp only [List.map_cons, List.contains_cons, Bool.not_or, bne]
    exact Bool.and_comm _ _

theorem get?_insertAll_of_not_mem {vars : Vars} {bindings : List (Text × Text)} {name : Text}
    (h : name ∉ bindings.map Prod.fst) : (vars.insertAll bindings).get? name = vars.get? name := by
  induction bindings generalizing vars with
  | nil => rfl
  | cons binding rest ih =>
    obtain ⟨key, value⟩ := binding
    rw [List.map_cons, List.mem_cons, not_or] at h
    exact (ih h.2).trans (by rw [get?_insert, if_neg h.1])

theorem get?_insertAll_of_mem {vars : Vars} {bindings : List (Text × Text)} {name value : Text}
    (hd : (bindings.map Prod.fst).Nodup) (h : (name, value) ∈ bindings) :
    (vars.insertAll bindings).get? name = some value := by
  induction bindings generalizing vars with
  | nil => cases h
  | cons binding rest ih =>
    rw [List.map_cons, List.nodup_cons] at hd
    rcases List.mem_cons.1 h with rfl | h
    · exact (get?_insertAll_of_not_mem hd.1).trans (by rw [get?_insert, if_pos rfl])
    · exact ih hd.2 h

theorem map_get?_insertAll {bindings : List (Text × Text)} (hd : (bindings.map Prod.fst).Nodup)
    (vars : Vars) :
    (bindings.map Prod.fst).map (vars.insertAll bindings).get?
      = (bindings.map Prod.snd).map some := by
  rw [List.map_map, List.map_map]
  exact List.map_congr_left fun binding hm => get?_insertAll_of_mem hd hm

/-- Names that are bound to as many values have these values, and all others keep theirs. -/
theorem get?_insertAll_zip {names values : List Text} (hd : names.Nodup)
    (hl : names.length = values.length) (vars : Vars) :
    names.map (vars.insertAll (names.zip values)).get? = values.map some ∧
      ∀ name, name ∉ names → (vars.insertAll (names.zip values)).get? name = vars.get? name := by
  have hfst : (names.zip values).map Prod.fst = names := List.map_fst_zip (Nat.le_of_eq hl)
  have hsnd : (names.zip values).map Prod.snd = values := List.map_snd_zip (Nat.le_of_eq hl.symm)
  have hkeys := map_get?_insertAll (hfst.symm ▸ hd) vars
  rw [hfst, hsnd] at hkeys
  exact ⟨hkeys, fun name hn => get?_insertAll_of_not_mem (hfst.symm ▸ hn)⟩

/-- Bindings take the place of all that is there, if that has none but their names. -/
theorem insertAll_of_subset {vars : Vars} {bindings : List (Text × Text)}
    (h : vars.names ⊆ bindings.map Prod.fst) :
    vars.insertAll bindings = Vars.empty.insertAll bindings := by
  obtain ⟨entries⟩ := vars
  have he := entries_insertAll [] entries bindings
  have hf : (entries.filter fun entry => !(bindings.map Prod.fst).contains entry.1) = [] := by
    rw [List.filter_eq_nil_iff]
    intro entry hm
    have hc := h (List.mem_map_of_mem hm)
    simp only [List.contains_iff_mem.2 hc]
    decide
  rw [hf, List.append_nil, List.nil_append] at he
  exact congrArg Vars.mk he

theorem isSome_get? {vars : Vars} {name : Text} (h : name ∈ vars.names) :
    (vars.get? name).isSome = true := by
  obtain ⟨entries⟩ := vars
  induction entries with
  | nil => cases h
  | cons entry rest ih =>
    obtain ⟨key, value⟩ := entry
    simp only [get?, List.lookup_cons]
    split
    · rfl
    · rename_i hk
      rcases List.mem_cons.1 h with rfl | h
      · simp at hk
      · exact ih h

theorem fillFrom_of_subset {vars outer : Vars} (h : outer.names ⊆ vars.names) :
    vars.fillFrom outer = vars := by
  have hf : (outer.entries.filter fun entry => (vars.get? entry.1).isNone) = [] := by
    rw [List.filter_eq_nil_iff]
    intro entry hm
    have hs := isSome_get? (h (List.mem_map_of_mem hm))
    rw [Option.isNone_eq_false_iff.2 hs]
    decide
  rw [fillFrom, hf, List.append_nil]

theorem get?_fillFrom {vars outer : Vars} {name value : Text} (h : vars.get? name = some value) :
    (vars.fillFrom outer).get? name = some value := by
  unfold get? at h ⊢
  rw [fillFrom, List.lookup_append, h]
  rfl

end Vars

end HttpRouter
