/-!
# Keyed lists

A list whose entries carry a key, in the order in which the keys first came.  `upsert` changes the entry of a
key and appends a fresh one if there is none; `change?` changes an entry that must exist.  Neither of them
moves an entry, so an entry keeps the place that it got when its key first came.

The list stands for a map that keeps its keys in the order of their insertion, and follows these facts about it: a key
has one entry at most, an entry is found by its key, the entry of a new key comes behind all others, a change to
an entry that exists leaves its place and every other entry as they are, and going through the map meets the entries
in this order.  Nothing is ever removed, so what a removal does to the order does not matter.
-/

namespace NodeTrace.Keyed

variable {κ α : Type} [DecidableEq κ]

/-- The entry of a key. -/
def find? (key : α → κ) (k : κ) (entries : List α) : Option α := entries.find? (key · = k)

/-- Change the entry of a key; a key without an entry gets a fresh one, changed alike. -/
def upsert (key : α → κ) (k : κ) (fresh : α) (change : α → α) : List α → List α
  | [] => [change fresh]
  | entry :: rest =>
    if key entry = k then change entry :: rest else entry :: upsert key k fresh change rest

/-- Change the entry of a key, if there is one. -/
def change? (key : α → κ) (k : κ) (change : α → α) : List α → Option (List α)
  | [] => none
  | entry :: rest =>
    if key entry = k then some (change entry :: rest)
    else (change? key k change rest).map (entry :: ·)

@[simp] theorem find?_nil (key : α → κ) (k : κ) : find? key k [] = none := rfl

theorem find?_cons (key : α → κ) (k : κ) (entry : α) (rest : List α) :
    find? key k (entry :: rest) = if key entry = k then some entry else find? key k rest := by
  unfold find?
  by_cases h : key entry = k <;> simp [h]

/-- A change that keeps the key gives the changed entry back for its key. -/
theorem find?_upsert_self {key : α → κ} {k : κ} {fresh : α} {change : α → α} (entries : List α)
    (hf : key fresh = k) (hc : ∀ entry, key (change entry) = key entry) :
    find? key k (upsert key k fresh change entries) =
      some (change ((find? key k entries).getD fresh)) := by
  induction entries with
  | nil => rw [upsert, find?_cons, if_pos (by rw [hc, hf])]; rfl
  | cons entry rest ih =>
    rw [upsert]
    by_cases h : key entry = k
    · rw [if_pos h, find?_cons, if_pos (by rw [hc, h]), find?_cons, if_pos h]; rfl
    · rw [if_neg h, find?_cons, if_neg h, ih, find?_cons, if_neg h]

/-- A change that keeps the key leaves the entries of other keys alone. -/
theorem find?_upsert_of_ne {key : α → κ} {k k' : κ} {fresh : α} {change : α → α} (entries : List α)
    (hf : key fresh = k) (hc : ∀ entry, key (change entry) = key entry) (hk : k' ≠ k) :
    find? key k' (upsert key k fresh change entries) = find? key k' entries := by
  induction entries with
  | nil => rw [upsert, find?_cons, if_neg (by rw [hc, hf]; exact hk.symm)]
  | cons entry rest ih =>
    rw [upsert]
    by_cases h : key entry = k
    · have hne : key entry ≠ k' := fun h' => hk (h'.symm.trans h)
      rw [if_pos h, find?_cons, if_neg (by rw [hc]; exact hne), find?_cons, if_neg hne]
    · rw [if_neg h, find?_cons, ih, find?_cons]

end NodeTrace.Keyed
