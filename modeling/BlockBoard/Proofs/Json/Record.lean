import Mathlib.Data.List.Basic
import BlockBoard.Block.Document
/-!
# Records and tables in documents

A record is found again in its document, whichever of its fields are left out, and so is a table whose
keys are in order.

- `Json.record`: the members of a record.
- `Json.fields?_record`: **the fields of a record are found in its document**.
- `table?_members`: **a table is read from its document entry by entry**.
-/

namespace BlockBoard

/-! ## Lists of results -/

section MapM

variable {α β γ : Type}

/-- Reading every item of a list succeeds if reading each of them does. -/
theorem mapM_map_of_forall {f : α → Option β} {g : γ → α} {h : γ → β} {xs : List γ}
    (hf : ∀ x ∈ xs, f (g x) = some (h x)) : (xs.map g).mapM f = some (xs.map h) := by
  induction xs with
  | nil => rfl
  | cons x r ih =>
    obtain ⟨hx, hr⟩ := List.forall_mem_cons.mp hf
    rw [List.map_cons, List.mapM_cons, hx, ih hr]
    rfl

end MapM

/-! ## Records -/

namespace Json

/-- The members of a record: the fields that have a value, in order. -/
def record (fs : List (String × Option Json)) : List (Option String × Json) :=
  fs.filterMap fun f => f.2.map (member f.1)

theorem record_cons (f : String × Option Json) (r : List (String × Option Json)) :
    record (f :: r) = (f.2.map (member f.1)).toList ++ record r := by
  obtain ⟨name, v⟩ := f
  cases v <;> rfl

theorem exists_of_mem_record {fs : List (String × Option Json)} {m : Option String × Json}
    (h : m ∈ record fs) : ∃ f ∈ fs, m.1 = some f.1 ∧ f.2 = some m.2 := by
  obtain ⟨⟨name, v⟩, hf, hm⟩ := List.mem_filterMap.mp h
  obtain ⟨v, rfl, rfl⟩ := Option.map_eq_some_iff.mp hm
  exact ⟨_, hf, rfl, rfl⟩

/-- Each field is found by its name. -/
theorem uniqueMember?_record {fs : List (String × Option Json)} (h : (fs.map Prod.fst).Nodup)
    {name : String} {v : Option Json} (hmem : (name, v) ∈ fs) :
    uniqueMember? name (record fs) = some v := by
  have honly : (record fs).filter (fun m => m.1 == some name) = (v.map (member name)).toList := by
    induction fs with
    | nil => cases hmem
    | cons f r ih =>
      obtain ⟨hfirst, hnodup⟩ := List.nodup_cons.mp h
      rw [record_cons, List.filter_append]
      rcases List.mem_cons.mp hmem with rfl | hmem
      · -- no later field has the name
        have hnone : (record r).filter (fun m => m.1 == some name) = [] := by
          refine List.filter_eq_nil_iff.mpr fun m hm => ?_
          obtain ⟨f, hf, hm, -⟩ := exists_of_mem_record hm
          rw [hm]
          simp only [beq_iff_eq, Option.some.injEq]
          rintro rfl
          exact hfirst (List.mem_map.mpr ⟨f, hf, rfl⟩)
        rw [hnone, List.append_nil]
        cases v <;> simp [member]
      · have hother : f.1 ≠ name := by
          rintro rfl
          exact hfirst (List.mem_map.mpr ⟨_, hmem, rfl⟩)
        rw [ih hnodup hmem]
        cases f.2 <;> simp [member, hother]
  rw [uniqueMember?, honly]
  cases v <;> rfl

/-- **The fields of a record are found in its document.** -/
theorem fields?_record {fs : List (String × Option Json)} (h : (fs.map Prod.fst).Nodup) :
    fields? (fs.map Prod.fst) (.object (record fs)) = some (fs.map Prod.snd) := by
  have hnamed : ¬ (record fs).any (fun m => m.1.isNone) = true := by
    rw [List.any_eq_true]
    rintro ⟨m, hm, hnone⟩
    obtain ⟨f, -, hname, -⟩ := exists_of_mem_record hm
    rw [hname] at hnone
    cases hnone
  rw [fields?, if_neg hnamed]
  exact mapM_map_of_forall fun f hf => uniqueMember?_record h hf

end Json

/-! ## Tables -/

/-- Keys in order, none of them twice. -/
def Ordered {α : Type} (t : List (String × α)) : Prop := (t.map Prod.fst).Pairwise (· < ·)

theorem insertSorted_of_forall_lt {α : Type} {t : List (String × α)} {k : String}
    (h : ∀ e ∈ t, e.1 < k) (v : α) : insertSorted k v t = t ++ [(k, v)] := by
  induction t with
  | nil => rfl
  | cons e r ih =>
    obtain ⟨he, hr⟩ := List.forall_mem_cons.mp h
    obtain ⟨k', v'⟩ := e
    have hne : k ≠ k' := by
      rintro rfl
      exact String.lt_irrefl k he
    rw [insertSorted, if_neg (String.lt_asymm he), if_neg hne, ih hr]
    rfl

/-- Entries that are put into a table in their order follow those that are there. -/
theorem foldl_insertSorted {α : Type} {t entries : List (String × α)} (h : Ordered (t ++ entries)) :
    entries.foldl (fun t e => insertSorted e.1 e.2 t) t = t ++ entries := by
  induction entries generalizing t with
  | nil => simp
  | cons e r ih =>
    have hbefore : ∀ a ∈ t, a.1 < e.1 := by
      rw [Ordered, List.map_append] at h
      exact fun a ha => (List.pairwise_append.mp h).2.2 _ (List.mem_map_of_mem ha) _ List.mem_cons_self
    rw [List.foldl_cons, insertSorted_of_forall_lt hbefore, ih (by simpa using h)]
    simp

/-- Reading the values of a table leaves its keys alone. -/
theorem keys_of_mapM {α β : Type} {f : α → Option β} {t : List (String × α)}
    {entries : List (String × β)} (h : (t.mapM fun e => (f e.2).map (e.1, ·)) = some entries) :
    entries.map Prod.fst = t.map Prod.fst := by
  induction t generalizing entries with
  | nil =>
    cases h
    rfl
  | cons e r ih =>
    rw [List.mapM_cons] at h
    cases hv : f e.2 with
    | none =>
      rw [hv] at h
      cases h
    | some v =>
      cases hr : r.mapM fun e => (f e.2).map (e.1, ·) with
      | none =>
        rw [hv, hr] at h
        cases h
      | some others =>
        rw [hv, hr] at h
        cases h
        rw [List.map_cons, List.map_cons, ih hr]

/-- **A table is read from its document entry by entry.** -/
theorem table?_members {α β : Type} {read : Json → Option β} {write : α → Json}
    {t : List (String × α)} (h : Ordered t) :
    table? read (.object (t.map fun e => Json.member e.1 (write e.2))) =
      t.mapM fun e => (read (write e.2)).map (e.1, ·) := by
  have hentries : (t.map fun e => Json.member e.1 (write e.2)).mapM
      (fun m => do return ((← m.1), (← read m.2))) = t.mapM fun e => (read (write e.2)).map (e.1, ·) := by
    rw [List.mapM_map]
    refine congrArg (t.mapM ·) (funext fun e => ?_)
    rw [Option.map_eq_bind]
    rfl
  show ((t.map fun e => Json.member e.1 (write e.2)).mapM
      (fun m => do return ((← m.1), (← read m.2))) >>= fun entries : List (String × β) =>
        some (entries.foldl (fun t e => insertSorted e.1 e.2 t) [])) = _
  rw [hentries]
  cases hread : t.mapM fun e => (read (write e.2)).map (e.1, ·) with
  | none => rfl
  | some entries =>
    have hordered : Ordered ([] ++ entries) := by
      rwa [List.nil_append, Ordered, keys_of_mapM (f := fun a => read (write a)) hread]
    exact congrArg some (foldl_insertSorted hordered)

end BlockBoard
