import RingOverlay.Proofs.Network.Frame

/-!
# `Network.Events` — what the subscribers of members are told

`told p` is a view of a network as `Network.table` is: for each position the events of the kinds `p` that
its subscriber has been told. Only `publish` changes it, so a step that publishes no event of these kinds
keeps the view.

## Contents
- **The view.** `told`.
- **Steps that tell nothing.** `told_…` for each change of tables.
- **Steps that tell.** `told_publish`, and the steps that publish events of one kind.
-/

namespace RingOverlay.Network

/-- The events of the kinds `p` that the subscriber of the member at position `k` is told, the latest
    first. -/
def told (net : Network) (p : RingEvent → Bool) (k : Nat) : List RingEvent :=
  (net.member k).events.filter p

variable (net : Network) {net' : Network} {p : RingEvent → Bool} {k : Nat}

/-! ## Steps that tell nothing -/

variable {net} in
theorem Quiet.told (h : Quiet net net') : net'.told p = net.told p := by
  funext i
  rw [Network.told, h.member, Network.told]

theorem told_note (n : Note) : (net.note n).told p = net.told p := rfl

/-- A change of a member that spares its events of the kinds `p`. -/
theorem told_update_of_spared (k : Nat) {f : Member → Member}
    (hf : ∀ m, (f m).events.filter p = m.events.filter p) : (net.update k f).told p = net.told p :=
  funext (net.member_update_of_spared (fun m => m.events.filter p) k hf)

theorem told_modifyTable (k : Nat) (f : Table → Table) :
    (net.modifyTable k f).told p = net.told p :=
  net.told_update_of_spared k fun _ => rfl

theorem told_setAnnounced (k : Nat) (b : Bool) : (net.setAnnounced k b).told p = net.told p :=
  net.told_update_of_spared k fun _ => rfl

theorem told_setFinger (k : Nat) (i : Fin 256) (n : Node) :
    (net.setFinger k i n).told p = net.told p := by
  unfold setFinger
  split
  · rfl
  · rw [told_note, told_modifyTable]

theorem told_setPredecessor (k : Nat) (n : Node) : (net.setPredecessor k n).told p = net.told p := by
  rw [setPredecessor, told_modifyTable, told_note]

theorem told_clearPredecessor (k : Nat) : (net.clearPredecessor k).told p = net.told p :=
  net.told_modifyTable k _

theorem told_remove (k : Nat) (id : RingId) : (net.remove k id).told p = net.told p := by
  rw [remove, told_note, told_modifyTable]

theorem told_learnPredecessor (k : Nat) (q : Option Node) :
    (net.learnPredecessor k q).told p = net.told p := by
  unfold learnPredecessor
  cases q with
  | none => rfl
  | some n =>
    simp only
    split
    · exact net.told_setPredecessor k n
    · rfl

/-! ## Steps that tell -/

variable {net} in
theorem told_publish (hk : k < net.members.length) {e : RingEvent} (he : p e = true) :
    (net.publish k e).told p = Function.update (net.told p) k (e :: net.told p k) := by
  have hk' : k < (net.note (.published e)).members.length := hk
  funext i
  by_cases hik : i = k
  · subst hik
    rw [Function.update_self, told, publish, member_update_self _ _ hk', List.filter_cons_of_pos he]
    rfl
  · rw [Function.update_of_ne hik, told, publish, member_update_of_ne _ _ (Ne.symm hik)]
    rfl

/-- An event of another kind. -/
theorem told_publish_of_not (k : Nat) {e : RingEvent} (he : p e = false) :
    (net.publish k e).told p = net.told p :=
  (net.note _).told_update_of_spared k fun _ => List.filter_cons_of_neg (by simp [he])

theorem told_adoptPredecessor_of_not (k : Nat) (n : Node)
    (he : ∀ old new, p (.predecessorChanged old new) = false) :
    (net.adoptPredecessor k n).told p = net.told p := by
  unfold adoptPredecessor
  simp only
  split
  · exact net.told_setPredecessor k n
  · rw [told_publish_of_not _ _ (he ..), told_setPredecessor]

theorem told_announceIfReady (k : Nat) (he : ∀ s q, p (.joined s q) = false) :
    (net.announceIfReady k).told p = net.told p := by
  unfold announceIfReady
  simp only
  split
  · split
    · rfl
    · rw [told_publish_of_not _ _ (he ..), told_note, told_setAnnounced]
  · rfl

end RingOverlay.Network
