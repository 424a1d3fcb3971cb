import FaultRecovery.Proofs.Allocator
import FaultRecovery.Proofs.Registry.Directory

namespace FaultRecovery

variable {c : Config} {slab : Slab Region} {a : Allocator}

namespace Allocator

theorem Grants.handle_eq {c' : Config} {p q : Placement} (hp : Grants c a p) (hq : Grants c' a q)
    (hc : a.take c' = a.take c) : p.handle = q.handle := by
  cases hp with
  | placed ht hi =>
      cases hq with
      | placed ht' hi' =>
          rw [hc, ht] at ht'
          obtain rfl := Option.some.inj ht'
          exact Handle.eq_of_index? hi hi'
      | refused hn => cases ht.symm.trans (hc ▸ hn)
  | refused hn =>
      cases hq with
      | placed ht' _ => cases (hc ▸ ht').symm.trans hn
      | refused _ => rfl

namespace Tracks

theorem take_of_room (h : a.Tracks slab) {room : Slab Region} {growth : Option Growth} {i : Nat} {is : List Nat}
    (hr : Room c.clamped slab room growth) (hl : room.Links (i :: is)) :
    a.take c = (some i, ⟨is, room.capacity⟩) := by
  cases hr with
  | spare _ => rw [take_of_cons (h.stack_eq hl), h.capacity_eq]
  | grown hn hlt =>
      have hi := hl.chain.unique (hn.extend_of_nil hlt).chain
      obtain ⟨rfl, rfl⟩ := List.cons.inj hi
      rw [Slab.capacity_extend (Nat.le_of_lt hlt), c.nextCapacity_clamped, h.capacity_eq]
      rw [c.nextCapacity_clamped, h.capacity_eq] at hlt
      exact Allocator.take_of_room (h.stack_eq hn) hlt

theorem take_of_full (h : a.Tracks slab) (hl : slab.Links [])
    (hn : c.clamped.nextCapacity slab.capacity ≤ slab.capacity) : a.take c = (none, a) := by
  rw [c.nextCapacity_clamped, h.capacity_eq] at hn
  exact Allocator.take_of_full (h.stack_eq hl) (Nat.not_lt_of_le hn)

theorem meet_give_of_stray (h : a.Tracks slab) {handle : Handle} (hn : slab.named? handle = none) :
    a.meet c (.give handle) = a := by
  rw [meet]
  cases hi : handle.index? with
  | none => rfl
  | some i =>
      have hg : slab.get? i = none := by simpa only [Slab.named?, hi, Option.bind_some] using hn
      have hu : ¬ a.InUse i := by
        rw [h.inUse_iff, hg]
        exact Bool.false_ne_true
      exact if_neg hu

theorem put (h : a.Tracks slab) {i : Nat} {r s : Region} (hi : slab.get? i = some r) :
    a.Tracks (slab.put i s) :=
  ⟨h.links.put hi s, (slab.capacity_put i s).trans h.capacity_eq⟩

theorem step (h : a.Tracks slab) {request : Request} {report : Report Reply}
    (he : Effect c.clamped slab request report) :
    (a.follow c ⟨request, report.outcome⟩).Tracks report.registry.metadata.value := by
  cases he with
  | collided | misfit | lost | obstructed => exact h
  | refused ha hl hn =>
      change (a.take c).2.Tracks slab
      rw [h.take_of_full hl hn]
      exact h
  | placed ha hr hl ho =>
      change (a.take c).2.Tracks _
      rw [h.take_of_room hr hl]
      exact ⟨hl.insert _, Slab.capacity_insert ..⟩
  | spared => exact h
  | released hi hr =>
      change (a.meet c (.give _)).Tracks _
      rw [meet, hi]
      exact h.give hr
  | strayIgnored hv hs hn =>
      change (a.meet c (.give _)).Tracks slab
      rw [h.meet_give_of_stray hn]
      exact h
  | strayRejected hv hs hn =>
      change (a.meet c (.give _)).Tracks slab
      rw [h.meet_give_of_stray hn]
      exact h
  | moved hi hg ha => exact h.put hg
  | answered ha =>
      cases request with
      | register | release | relocate => cases ha
      | region | resolve | audit | capacity | size | isEmpty | vacancies => exact h

theorem register (h : a.Tracks slab) {r : Region} {report : Report Reply}
    (he : Effect c.clamped slab (.register r) report) :
    (c.verify = true ∧ ∃ cause seen, report.outcome = .error ⟨.rejected (.inconsistent cause), seen⟩) ∨
      ∃ p, report.outcome = .ok (.placement p) ∧ Grants c a p := by
  cases he with
  | collided hv he => exact .inl ⟨hv, _, _, rfl⟩
  | misfit hv ha hs => exact .inl ⟨hv, _, _, rfl⟩
  | refused ha hl hn =>
      refine .inr ⟨_, rfl, ?_⟩
      rw [h.capacity_eq]
      exact .refused (by rw [h.take_of_full hl hn])
  | placed ha hr hl ho =>
      exact .inr ⟨_, rfl, .placed (by rw [h.take_of_room hr hl]) (Handle.index?_of_ofIndex? ho)⟩
  | answered ha => cases ha

theorem grants (h : a.Tracks slab) {r : Region} {report : Report Reply} {p : Placement}
    (he : Effect c.clamped slab (.register r) report) (hp : report.outcome = .ok (.placement p)) :
    Grants c a p := by
  obtain ⟨-, cause, seen, hf⟩ | ⟨q, hq, hg⟩ := h.register he
  · cases hp.symm.trans hf
  · obtain rfl := Reply.placement.inj (Except.ok.inj (hp.symm.trans hq))
    exact hg

end Tracks

end Allocator

namespace Registry

variable {past : List Exchange} {registry : Registry}

theorem Run.tracks (h : Run c past registry) : (Allocator.after c past).Tracks registry.metadata.value := by
  induction h with
  | new => exact .empty
  | perform h request hs ih =>
      rw [Allocator.after_cons]
      exact ih.step (h.reachable.effect request)

theorem Run.register_granted (h : Run c past registry) (r : Region) :
    (c.verify = true ∧ ∃ cause seen,
        (registry.perform (.register r)).outcome = .error ⟨.rejected (.inconsistent cause), seen⟩) ∨
      ∃ p, (registry.perform (.register r)).outcome = .ok (.placement p) ∧ (Allocator.after c past).Grants c p :=
  h.tracks.register (h.reachable.effect _)

theorem Run.grants (h : Run c past registry) {r : Region} {p : Placement}
    (hp : (registry.perform (.register r)).outcome = .ok (.placement p)) :
    (Allocator.after c past).Grants c p :=
  h.tracks.grants (h.reachable.effect _) hp

theorem Run.named_iff_inUse (h : Run c past registry) (handle : Handle) :
    (registry.directory handle).isSome = true ↔
      ∃ i, handle.index? = some i ∧ (Allocator.after c past).InUse i := by
  simp only [h.tracks.inUse_iff, directory, Slab.named?]
  cases handle.index? <;> simp

/-- The handles given out are those of an allocator that sees no region, only whether a registration was
rejected. Runs that ask the same of it are given the same handles, with verification or without. -/
theorem handles_taken_from_stack (h : Run c past registry) :
    (∀ r, (c.verify = true ∧ ∃ cause seen,
        (registry.perform (.register r)).outcome = .error ⟨.rejected (.inconsistent cause), seen⟩) ∨
      ∃ p, (registry.perform (.register r)).outcome = .ok (.placement p) ∧ (Allocator.after c past).Grants c p) ∧
      (∀ handle, (registry.directory handle).isSome = true ↔
        ∃ i, handle.index? = some i ∧ (Allocator.after c past).InUse i) ∧
      (registry.perform .capacity).outcome = .ok (.count (Allocator.after c past).capacity) ∧
      (registry.perform .vacancies).outcome = .ok (.count (Allocator.after c past).stack.length) ∧
      ∀ {verify : Bool} {past' : List Exchange} {other : Registry}, Run { c with verify := verify } past' other →
        past'.filterMap Exchange.demand? = past.filterMap Exchange.demand? → ∀ r r' p p',
        (registry.perform (.register r)).outcome = .ok (.placement p) →
        (other.perform (.register r')).outcome = .ok (.placement p') → p.handle = p'.handle := by
  refine ⟨h.register_granted, h.named_iff_inUse, ?_, ?_, ?_⟩
  · rw [← h.tracks.capacity_eq]
    exact h.reachable.outcome_eq rfl
  · rw [h.tracks.links.length_eq]
    exact h.reachable.outcome_eq rfl
  · intro verify past' other h' hd r r' p p' hp hp'
    have hg := h.grants hp
    have hg' := h'.grants hp'
    have ha : Allocator.after { c with verify := verify } past' = Allocator.after c past := by
      rw [Allocator.after, hd]
      rfl
    rw [ha] at hg'
    exact hg.handle_eq hg' rfl

theorem handles_taken_up_to_ceiling :
    ∃ past registry handle growth, Run ⟨false, 2, 5⟩ past registry ∧ handle.index? = some 4 ∧
      (registry.perform (.register ⟨0x1000, 0, []⟩)).outcome = .ok (.placement (.placed handle growth)) := by
  have h := Run.perform (.perform (.perform (.perform (.perform (.perform (.perform (.perform
    (Run.new (c := ⟨false, 2, 5⟩))
    (.register ⟨0x1000, 0x10, [⟨8, 4⟩]⟩) (by decide +kernel))
    (.register ⟨0x1008, 0x10, []⟩) (by decide +kernel))
    (.register ⟨0x1000, 0x10, []⟩) (by decide +kernel))
    (.release ⟨1⟩) (by decide +kernel))
    (.release ⟨0⟩) (by decide +kernel))
    (.release ⟨1⟩) (by decide +kernel))
    (.relocate ⟨2⟩ 0x4000) (by decide +kernel))
    (.register ⟨0x2000, 0x10, []⟩) (by decide +kernel)
  have h := Run.perform (.perform h
    (.register ⟨0x3000, 0x10, []⟩) (by decide +kernel))
    (.register ⟨0x4000, 0x10, []⟩) (by decide +kernel)
  obtain ⟨hv, -⟩ | ⟨p, hp, hg⟩ := (handles_taken_from_stack h).1 ⟨0x1000, 0, []⟩
  · cases hv
  · cases hg with
    | placed ht hi => exact ⟨_, _, _, _, h, hi.trans (ht.symm.trans (by decide +kernel)), hp⟩
    | refused ht => cases ht.symm.trans (by decide +kernel : _ = some 4)

end Registry

end FaultRecovery
