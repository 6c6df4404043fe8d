import Mathlib

/-! # Fields

A sequence is read field by field, each up to the next delimiter. The last field needs none, but there is
no field after a delimiter at the end.

* `fields_eq` — one field after the other.
* `fields_append_cons`, `fields_flatMap`, `fields_intercalate` — the fields of a sequence that is put
  together from fields.
* `intercalate_fields` — a sequence is put together from its fields. -/

variable {α : Type*} [DecidableEq α]

/-- The next field, and what is behind its delimiter; nothing at the end. -/
def nextField (d : α) (text : List α) : Option (List α × List α) :=
  if text = [] then none else some (text.takeWhile (· ≠ d), (text.dropWhile (· ≠ d)).tail)

/-- All fields. -/
def fields (d : α) : List α → List (List α)
  | [] => []
  | c :: text =>
      if c = d then [] :: fields d text
      else
        match fields d text with
        | [] => [[c]]
        | item :: rest => (c :: item) :: rest

variable {d : α}

theorem fields_eq_nil {text : List α} : fields d text = [] ↔ text = [] := by
  cases text with
  | nil => exact iff_of_true rfl rfl
  | cons c text =>
      refine iff_of_false ?_ (List.cons_ne_nil c text)
      rw [fields]
      split
      · exact List.cons_ne_nil _ _
      · split <;> exact List.cons_ne_nil _ _

/-- **The fields are read one after the other.** -/
theorem fields_eq (d : α) (text : List α) :
    fields d text =
      match nextField d text with
      | none => []
      | some (item, rest) => item :: fields d rest := by
  induction text with
  | nil => rfl
  | cons c text ih =>
      rw [nextField, if_neg (List.cons_ne_nil c text), fields]
      by_cases hc : c = d
      · simp [hc]
      · rw [if_neg hc, ih, nextField]
        by_cases htext : text = []
        · subst htext
          simp [hc, fields]
        · simp [htext, hc]

/-- What has no delimiter in it becomes a field in front of one. -/
theorem fields_append_cons {item : List α} (hitem : d ∉ item) (text : List α) :
    fields d (item ++ d :: text) = item :: fields d text := by
  induction item with
  | nil => rw [List.nil_append, fields, if_pos rfl]
  | cons c item ih =>
      rw [List.mem_cons, not_or] at hitem
      rw [List.cons_append, fields, if_neg (Ne.symm hitem.1), ih hitem.2]

/-- At the end, too, if there is something in it. -/
theorem fields_of_not_mem {item : List α} (hitem : d ∉ item) (hne : item ≠ []) :
    fields d item = [item] := by
  induction item with
  | nil => exact absurd rfl hne
  | cons c item ih =>
      rw [List.mem_cons, not_or] at hitem
      rw [fields, if_neg (Ne.symm hitem.1)]
      cases item with
      | nil => rfl
      | cons c' item => rw [ih hitem.2 (List.cons_ne_nil c' item)]

/-- **Fields with a delimiter each.** -/
theorem fields_flatMap {items : List (List α)} (hitems : ∀ item ∈ items, d ∉ item) :
    fields d (items.flatMap fun item => item ++ [d]) = items := by
  induction items with
  | nil => rfl
  | cons item items ih =>
      rw [List.forall_mem_cons] at hitems
      rw [List.flatMap_cons, List.append_assoc, List.singleton_append, fields_append_cons hitems.1,
        ih hitems.2]

/-- **Fields with a delimiter between them**, none of which is empty. -/
theorem fields_intercalate {items : List (List α)} (hitems : ∀ item ∈ items, d ∉ item)
    (hne : ∀ item ∈ items, item ≠ []) : fields d (List.intercalate [d] items) = items := by
  induction items with
  | nil => rfl
  | cons item items ih =>
      rw [List.forall_mem_cons] at hitems hne
      cases items with
      | nil => rw [List.intercalate_singleton, fields_of_not_mem hitems.1 hne.1]
      | cons next items =>
          rw [List.intercalate_cons_cons, List.append_assoc, List.singleton_append,
            fields_append_cons hitems.1, ih hitems.2 hne.2]

/-- **A sequence is put together from its fields**, unless it ends with a delimiter. -/
theorem intercalate_fields {text : List α} (hlast : text.getLast? ≠ some d) :
    List.intercalate [d] (fields d text) = text := by
  induction text with
  | nil => rfl
  | cons c text ih =>
      cases text with
      | nil =>
          have hc : c ≠ d := fun h => hlast (congrArg some h)
          rw [fields, if_neg hc]
          rfl
      | cons c' text =>
          have hrest := ih (by rwa [List.getLast?_cons_cons] at hlast)
          rw [fields]
          cases hfields : fields d (c' :: text) with
          | nil => exact absurd (fields_eq_nil.mp hfields) (List.cons_ne_nil c' text)
          | cons item rest =>
              rw [hfields] at hrest
              split
              · rename_i hc
                rw [List.intercalate_cons_cons, hrest, hc]
                rfl
              · cases rest with
                | nil => rw [← hrest, List.intercalate_singleton, List.intercalate_singleton]
                | cons next rest =>
                    rw [← hrest, List.intercalate_cons_cons, List.intercalate_cons_cons]
                    rfl
