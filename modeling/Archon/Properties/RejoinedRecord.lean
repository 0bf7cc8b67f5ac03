import Archon.Backend.AccountFrames
import Archon.Backend.OwnerColumns
import Archon.Backend.Scenario

/-!
# Splitting an account and merging it again (`accounts.py:164`, `317`)

A split shares the fields out between the record of the VEKN id and the personal account; a merge
reads each back from one of the two. What the split leaves in one place the merge finds there,
except the GitHub account, for which the merge has no rule, and values that count as absent.
-/

namespace Archon.Accounts
open Engine Backend Guards Claims CommunityLinks UserRows

section Rejoin

variable {s : Store} {d e : Draws} {u row : UserRow} {uid origin heir : Uid}

/-! ### The rows the merge leaves -/

theorem lookup_save (s : Store) (row : UserRow) (uid : Uid) :
    (s.save row).users.lookup uid = if uid = row.uid then some row else s.users.lookup uid := by
  unfold Store.save
  split
  · rename_i h
    rw [h, AList.lookup_insert]
  · rename_i h
    rw [AList.lookup_insert_ne h]

theorem lookup_recomputeWins (hk : s.WellKeyed) (hu : s.users.lookup uid = some u) :
    (∃ modified, (s.recomputeWins d uid).users.lookup uid =
      some { u with wins := d.wins, modified }) ∧
    ∀ w, w ≠ uid → (s.recomputeWins d uid).users.lookup w = s.users.lookup w := by
  obtain rfl : u.uid = uid := hk uid u hu
  unfold Store.recomputeWins
  rw [hu, Option.bind_some, UserRows.recomputeWins]
  split_ifs with hwins
  · refine ⟨⟨u.modified, ?_⟩, fun w _ => rfl⟩
    rw [hwins]
    exact hu
  · constructor
    · exact ⟨d.now, by rw [lookup_save, if_pos rfl]⟩
    · intro w hw
      rw [lookup_save, if_neg hw]

end Rejoin

/-! ### A member with a win no deck backs -/

end Archon.Accounts
