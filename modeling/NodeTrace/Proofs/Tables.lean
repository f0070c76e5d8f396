import Mathlib.Data.List.Induction
import Mathlib.Logic.Function.Basic
import NodeTrace.Keyed

/-!
# Keyed lists as tables of a function

A keyed list that grew with the keys `ks` holds an entry `f k` for each of them, in the order in which the keys first
came: it is `ks.eraseDups.map f`.  On lists of this form `find?` looks up `f` (`find?_table`), `upsert` adds a key and
changes `f` in one place (`upsert_table`), and `change?` changes `f` in one place (`change?_table`).
-/

namespace NodeTrace.Keyed

/-! ## Keys in the order of their first occurrence -/

section Keys

variable {κ : Type} [BEq κ] [LawfulBEq κ]

theorem eraseDups_concat (ks : List κ) (k : κ) :
    (ks ++ [k]).eraseDups = if k ∈ ks then ks.eraseDups else ks.eraseDups ++ [k] := by
  rw [List.eraseDups_append]
  by_cases h : k ∈ ks
  · have hnone : [k].removeAll ks = [] := by simp [List.removeAll, h]
    rw [if_pos h, hnone, List.eraseDups_nil, List.append_nil]
  · have hall : [k].removeAll ks = [k] := by simp [List.removeAll, h]
    rw [if_neg h, hall, List.eraseDups_cons, List.filter_nil, List.eraseDups_nil]

theorem nodup_eraseDups (ks : List κ) : ks.eraseDups.Nodup := by
  induction ks using List.reverseRecOn with
  | nil => exact List.nodup_nil
  | append_singleton ks k ih =>
    rw [eraseDups_concat]
    by_cases h : k ∈ ks
    · rw [if_pos h]; exact ih
    · rw [if_neg h, List.nodup_append]
      refine ⟨ih, List.pairwise_singleton _ k, ?_⟩
      rintro a ha b hb rfl
      rw [List.mem_singleton] at hb
      exact h (hb ▸ List.mem_eraseDups.1 ha)

end Keys

variable {κ α : Type} [DecidableEq κ]

/-! ## Lists with one entry for each key -/

section Map

variable {key : α → κ} {f : κ → α} {k : κ} {keys : List κ}

theorem find?_map (hkey : ∀ k, key (f k) = k) :
    find? key k (keys.map f) = if k ∈ keys then some (f k) else none := by
  induction keys with
  | nil => rfl
  | cons k' keys ih =>
    rw [List.map_cons, find?_cons, hkey, ih]
    by_cases h : k' = k
    · rw [if_pos h, h, if_pos List.mem_cons_self]
    · have hiff : k ∈ k' :: keys ↔ k ∈ keys := by
        rw [List.mem_cons]
        exact or_iff_right (Ne.symm h)
      rw [if_neg h]
      simp only [hiff]

/-- Away from the key that is changed the function stays. -/
theorem map_update_of_not_mem (h : k ∉ keys) (a : α) : keys.map (Function.update f k a) = keys.map f := by
  refine List.map_congr_left fun k' hk' => Function.update_of_ne ?_ a f
  rintro rfl
  exact h hk'

theorem upsert_map_mem {fresh : α} {change : α → α} (hkey : ∀ k, key (f k) = k) (hnd : keys.Nodup)
    (hk : k ∈ keys) :
    upsert key k fresh change (keys.map f) = keys.map (Function.update f k (change (f k))) := by
  induction keys with
  | nil => cases hk
  | cons k' keys ih =>
    obtain ⟨hnot, hnd⟩ := List.nodup_cons.1 hnd
    rw [List.map_cons, upsert, hkey, List.map_cons]
    by_cases h : k' = k
    · subst h
      rw [if_pos rfl, Function.update_self, map_update_of_not_mem hnot]
    · rw [if_neg h, Function.update_of_ne h, ih hnd ((List.mem_cons.1 hk).resolve_left (Ne.symm h))]

theorem upsert_map_not_mem {fresh : α} {change : α → α} (hkey : ∀ k, key (f k) = k) (hk : k ∉ keys) :
    upsert key k fresh change (keys.map f) = keys.map f ++ [change fresh] := by
  induction keys with
  | nil => rfl
  | cons k' keys ih =>
    obtain ⟨hne, hk⟩ := not_or.1 (fun h => hk (List.mem_cons.2 h))
    rw [List.map_cons, upsert, hkey, if_neg (Ne.symm hne), ih hk]
    rfl

theorem change?_map {change : α → α} (hkey : ∀ k, key (f k) = k) (hnd : keys.Nodup) (hk : k ∈ keys) :
    change? key k change (keys.map f) = some (keys.map (Function.update f k (change (f k)))) := by
  induction keys with
  | nil => cases hk
  | cons k' keys ih =>
    obtain ⟨hnot, hnd⟩ := List.nodup_cons.1 hnd
    rw [List.map_cons, change?, hkey, List.map_cons]
    by_cases h : k' = k
    · subst h
      rw [if_pos rfl, Function.update_self, map_update_of_not_mem hnot]
    · rw [if_neg h, Function.update_of_ne h, ih hnd ((List.mem_cons.1 hk).resolve_left (Ne.symm h))]
      rfl

end Map

/-! ## Tables -/

section Table

variable {key : α → κ} {f : κ → α} {ks : List κ} {k : κ}

theorem find?_table (hkey : ∀ k, key (f k) = k) :
    find? key k (ks.eraseDups.map f) = if k ∈ ks then some (f k) else none := by
  rw [find?_map hkey]
  simp only [List.mem_eraseDups]

/-- A fresh entry that is changed to what the function changes to makes the key one more key of the table. -/
theorem upsert_table {fresh : α} {change : α → α} (hkey : ∀ k, key (f k) = k)
    (hfresh : k ∉ ks → change fresh = change (f k)) :
    upsert key k fresh change (ks.eraseDups.map f) =
      (ks ++ [k]).eraseDups.map (Function.update f k (change (f k))) := by
  rw [eraseDups_concat]
  by_cases h : k ∈ ks
  · rw [if_pos h, upsert_map_mem hkey (nodup_eraseDups ks) (List.mem_eraseDups.2 h)]
  · have hnot : k ∉ ks.eraseDups := fun h' => h (List.mem_eraseDups.1 h')
    rw [if_neg h, upsert_map_not_mem hkey hnot, List.map_append, map_update_of_not_mem hnot, hfresh h,
      List.map_singleton, Function.update_self]

theorem change?_table {change : α → α} (hkey : ∀ k, key (f k) = k) (hk : k ∈ ks) :
    change? key k change (ks.eraseDups.map f) =
      some (ks.eraseDups.map (Function.update f k (change (f k)))) :=
  change?_map hkey (nodup_eraseDups ks) (List.mem_eraseDups.2 hk)

end Table

end NodeTrace.Keyed
