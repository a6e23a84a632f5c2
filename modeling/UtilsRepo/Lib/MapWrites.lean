import Mathlib.Data.List.AList

/-!
# Writes to a map

Maps that are filled entry by entry: a write gives a key a value or removes the key, and the last
write of a key wins.
-/

namespace MapWrites

variable {κ β ε : Type} [DecidableEq κ]

/-- Give a key a value, or remove it. -/
def write (m : AList fun _ : κ => β) (k : κ) (value : Option β) : AList fun _ : κ => β :=
  match value with
  | none => m.erase k
  | some b => m.insert k b

theorem lookup_write (m : AList fun _ : κ => β) (k : κ) (value : Option β) (k' : κ) :
    (write m k value).lookup k' = if k' = k then value else m.lookup k' := by
  cases value with
  | none =>
    change (m.erase k).lookup k' = _
    split_ifs with h
    · rw [h, AList.lookup_erase]
    · rw [AList.lookup_erase_ne h]
  | some b =>
    change (m.insert k b).lookup k' = _
    split_ifs with h
    · rw [h, AList.lookup_insert]
    · rw [AList.lookup_insert_ne h]

theorem forall_mem_entries_iff (m : AList fun _ : κ => β) {P : κ → β → Prop} :
    (∀ e ∈ m.entries, P e.1 e.2) ↔ ∀ k v, m.lookup k = some v → P k v := by
  have hmem := fun k v => @AList.mem_lookup_iff κ (fun _ => β) _ k v m
  exact ⟨fun h k v hv => h ⟨k, v⟩ ((hmem k v).mp hv), fun h e he => h e.1 e.2 ((hmem _ _).mpr he)⟩

/-! ## 1. Several writes -/

variable {entries : List ε} {m : AList fun _ : κ => β}

theorem lookup_foldl_write_of_notMem (key : ε → κ) (value : ε → Option β) {k : κ}
    (h : k ∉ entries.map key) :
    (entries.foldl (fun m e => write m (key e) (value e)) m).lookup k = m.lookup k := by
  induction entries generalizing m with
  | nil => rfl
  | cons e entries ih =>
    rw [List.map_cons, List.mem_cons, not_or] at h
    rw [List.foldl_cons, ih h.2, lookup_write, if_neg h.1]

/-- With different keys every write lasts. -/
theorem lookup_foldl_write_of_mem (key : ε → κ) (value : ε → Option β)
    (hnodup : (entries.map key).Nodup) {e : ε} (he : e ∈ entries) :
    (entries.foldl (fun m e => write m (key e) (value e)) m).lookup (key e) = value e := by
  induction entries generalizing m with
  | nil => cases he
  | cons head entries ih =>
    rw [List.map_cons, List.nodup_cons] at hnodup
    rw [List.foldl_cons]
    obtain rfl | he := List.mem_cons.mp he
    · -- no later write has this key
      rw [lookup_foldl_write_of_notMem key value hnodup.1, lookup_write, if_pos rfl]
    · exact ih hnodup.2 he

end MapWrites
