/-!
# Tables of names

A table binds ids to values.  Binding an id again replaces what it was bound to.
-/

namespace NodeTrace

/-- Ids and what they are bound to, each id at most once. -/
structure Table (α : Type) where
  bindings : List (UInt16 × α) := []

namespace Table

variable {α : Type}

instance : Inhabited (Table α) := ⟨{}⟩

/-- What an id is bound to. -/
def get? (t : Table α) (id : UInt16) : Option α := t.bindings.lookup id

/-- Bind an id. -/
def insert (t : Table α) (id : UInt16) (value : α) : Table α :=
  ⟨(id, value) :: t.bindings.filter (·.1 ≠ id)⟩

@[simp] theorem get?_empty (id : UInt16) : (({} : Table α)).get? id = none := rfl

theorem lookup_filter_ne (bindings : List (UInt16 × α)) {id id' : UInt16} (h : id' ≠ id) :
    (bindings.filter (·.1 ≠ id)).lookup id' = bindings.lookup id' := by
  induction bindings with
  | nil => rfl
  | cons b rest ih =>
    obtain ⟨k, v⟩ := b
    by_cases hk : k = id
    · have hne : (id' == k) = false := by simpa [hk] using h
      rw [List.filter_cons_of_neg (by simpa using hk), List.lookup_cons, hne]; exact ih
    · rw [List.filter_cons_of_pos (by simpa using hk), List.lookup_cons, List.lookup_cons, ih]

theorem get?_insert (t : Table α) (id id' : UInt16) (value : α) :
    (t.insert id value).get? id' = if id' = id then some value else t.get? id' := by
  unfold get? insert
  by_cases h : id' = id
  · subst h; simp
  · have hne : (id' == id) = false := by simpa using h
    rw [List.lookup_cons, hne, if_neg h]
    exact lookup_filter_ne t.bindings h

end Table

end NodeTrace
