import RingOverlay.Network.Delivery
import RingOverlay.Proofs.Network.Frame

/-!
# `Network.FailedJoin` — what a join that fails leaves behind

A member that joins reads the two neighbours that it is told one after the other, and writes the first of
them before it reads the second. Most joins that fail therefore change nothing: nobody answered, or the
successor could not be read. Where the successor is another node and the predecessor cannot be read, the
join fails with that successor in slot 0.

## Contents
- **Answers.** `joinAnswer`, `halfTold?`.
- **The step.** `join_eq_of_error`.
- **The table.** `table_join_of_error`; `joined_halfway_jilted`, a member that is left half-way.
-/

namespace RingOverlay.Network

variable {net net' net₁ : Network} {t : Transport} {k : Nat} {through : String}

/-! ## Answers -/

/-- What the request of a member to join brings. -/
def joinAnswer (t : Transport) (k : Nat) (through : String) :
    Act (Except TransportFault JoinResponse) := fun net =>
  t .join through { requestingNode := some (net.self k).contact }
    (net.note (.joining (net.self k) through))

/-- The successor that an answer names, if it is another node and the rest of the answer cannot be read. -/
def halfTold? (self : Node) : Except TransportFault JoinResponse → Option Node
  | .error _ => none
  | .ok reply =>
    match Contact.required reply.successor "successor", Contact.optional reply.predecessor with
    | .ok s, .error _ => if s = self then none else some s
    | _, _ => none

/-! ## The step -/

/-- Once its answer is there, a join that fails writes nothing but a successor that it was half told. -/
theorem join_eq_of_error {answer : Except TransportFault JoinResponse} {fault : RingFault}
    (hcall : joinAnswer t k through net = (answer, net₁))
    (hfail : join t k through net = (.error fault, net')) :
    net' = match halfTold? (net.self k) answer with
      | none => net₁
      | some s => net₁.setFinger k Table.successorSlot s := by
  unfold joinAnswer at hcall
  unfold join at hfail
  simp only [hcall] at hfail
  unfold halfTold?
  cases answer with
  | error lost => exact (congrArg Prod.snd hfail).symm
  | ok reply =>
    simp only at hfail ⊢
    cases hs : Contact.required reply.successor "successor" with
    | error unread =>
      rw [hs] at hfail
      exact (congrArg Prod.snd hfail).symm
    | ok s =>
      rw [hs] at hfail
      simp only at hfail
      cases hp : Contact.optional reply.predecessor with
      | ok p =>
        -- a join that was told both neighbours does not fail
        rw [hp] at hfail
        cases congrArg Prod.fst hfail
      | error unread =>
        rw [hp] at hfail
        have hnet : (if s = net.self k then net₁
            else net₁.setFinger k Table.successorSlot s) = net' := congrArg Prod.snd hfail
        rw [← hnet]
        by_cases hself : s = net.self k
        · simp only [if_pos hself]
        · simp only [if_neg hself]

/-! ## The table -/

/-- Whatever a member knows and whatever its request to join brings, a join that fails touches no
    predecessor and no slot past the first one. It leaves the whole table as the answer found it, unless the
    answer half told a successor that the member did not have: slot 0 holds that successor then. -/
theorem table_join_of_error {answer : Except TransportFault JoinResponse} {fault : RingFault}
    (hk : k < net₁.members.length) (hcall : joinAnswer t k through net = (answer, net₁))
    (hfail : join t k through net = (.error fault, net')) :
    (∀ i, i ≠ k → net'.table i = net₁.table i) ∧
    net'.predecessor? k = net₁.predecessor? k ∧
    (∀ i, i ≠ 0 → (net'.table k).finger i = (net₁.table k).finger i) ∧
    (net'.table k = net₁.table k ↔
      ∀ s, halfTold? (net.self k) answer = some s → (net₁.table k).successor? = some s) ∧
    ∀ s, halfTold? (net.self k) answer = some s → (net'.table k).successor? = some s := by
  have hnet := join_eq_of_error hcall hfail
  cases htold : halfTold? (net.self k) answer with
  | none =>
    rw [htold] at hnet
    subst hnet
    exact ⟨fun _ _ => rfl, rfl, fun _ _ => rfl, ⟨fun _ => nofun, fun _ => rfl⟩, nofun⟩
  | some s =>
    rw [htold] at hnet
    have htable : net'.table
        = Function.update net₁.table k ((net₁.table k).setFinger Table.successorSlot s) := by
      rw [hnet]
      exact table_setFinger hk Table.successorSlot s
    have hself : net'.table k = (net₁.table k).setFinger Table.successorSlot s := by
      rw [htable, Function.update_self]
    have hzero : (net'.table k).successor? = some s := by
      rw [hself]
      exact Table.finger_setFinger_self _ Table.successorSlot s
    refine ⟨?_, ?_, ?_, ?_, ?_⟩
    · intro i hi
      rw [htable, Function.update_of_ne hi]
    · rw [predecessor?, hself, Table.predecessor_setFinger, predecessor?]
    · intro i hi
      rw [hself, Table.finger_setSuccessor, if_neg hi]
    · constructor
      · rintro hsame _ ⟨⟩
        rw [← hsame]
        exact hzero
      · intro hknown
        rw [hself]
        exact if_pos (hknown s rfl)
    · rintro _ ⟨⟩
      exact hzero

/-- A member that knows nobody and is about to join. At `x` it will be told a successor, and a predecessor
    without an endpoint; at `y` it will be told no successor. -/
def jilted : Network where
  members := [{ self := ⟨.one, "a"⟩, hopLimit := 64, joinThrough := none, fingersPerTick := 8 }]
  registry := [("a", 0)]
  script :=
    [⟨.join, "x", .ok ⟨some ⟨"5", "x"⟩, some ⟨"7", ""⟩⟩, 1⟩,
     ⟨.join, "y", .ok ⟨none, some ⟨"7", "z"⟩⟩, 1⟩]

theorem table_join_of_error_jilted : ∃ answer net₁ fault net',
    joinAnswer transport 0 "y" jilted = (answer, net₁) ∧
    join transport 0 "y" jilted = (.error fault, net') ∧ net'.table 0 = net₁.table 0 := by
  have hfails : (join transport 0 "y" jilted).1.isOk = false ∧
      0 < (joinAnswer transport 0 "y" jilted).2.members.length ∧
      halfTold? (jilted.self 0) (joinAnswer transport 0 "y" jilted).1 = none := by decide +kernel
  obtain ⟨hfail, hlen, hnone⟩ := hfails
  cases hcall : joinAnswer transport 0 "y" jilted with
  | mk answer net₁ =>
    cases hjoin : join transport 0 "y" jilted with
    | mk result net' =>
      rw [hcall] at hlen hnone
      rw [hjoin] at hfail
      cases result with
      | ok s => cases hfail
      | error fault =>
        obtain ⟨-, -, -, hsame, -⟩ := table_join_of_error hlen hcall hjoin
        refine ⟨answer, net₁, fault, net', rfl, rfl, hsame.2 ?_⟩
        rw [hnone]
        exact nofun

/-- A join that fails does not always leave the member as it was: this one ends with a successor. -/
theorem joined_halfway_jilted : ∃ fault net', join transport 0 "x" jilted = (.error fault, net') ∧
    jilted.table 0 = .empty ∧ (net'.table 0).successor? = some ⟨.ofNat 5, "x"⟩ ∧
    net'.table 0 ≠ jilted.table 0 := by
  have hfails : (join transport 0 "x" jilted).1.isOk = false ∧
      ((join transport 0 "x" jilted).2.table 0).successor? = some ⟨.ofNat 5, "x"⟩ := by
    decide +kernel
  cases hjoin : join transport 0 "x" jilted with
  | mk result net' =>
    rw [hjoin] at hfails
    obtain ⟨hfail, hsucc⟩ := hfails
    cases result with
    | ok s => cases hfail
    | error fault =>
      refine ⟨fault, net', rfl, rfl, hsucc, ?_⟩
      intro hsame
      rw [hsame] at hsucc
      cases hsucc

end RingOverlay.Network
