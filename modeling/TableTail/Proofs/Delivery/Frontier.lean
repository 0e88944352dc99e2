import TableTail.Proofs.Delivery.Accounts

/-!
# The frontier of delivery

A poll reads a batch, tries to deliver it and rolls it back when it cannot. This follows the
accounts through its programs: a read takes rows in hand (`holding_sweep`), a delivery settles them
or puts them back (`deliver_ensures`), and so a poll that begins with everything settled ends with
everything settled (`poll_ensures`), whether its read or its delivery failed or not.
-/

namespace TableTail

namespace Reader

variable {r : Reader} {w : Setting Action Action.Answer Scene} {fl : Floor} {o : List Boundary}
  {taken : Nat} {s : Scene}

/-- A read takes the pages of its units in hand. -/
lemma holding_sweep (hw : w.Around r) (fl : Floor) (o : List Boundary) (taken limit now : Nat) :
    Sweep r w (Booked r fl o taken) limit now
      (fun k b s => Holding r fl o taken b s ∧ ∀ m ∈ (s.moves o).drop k, m.Still)
      (fun x s => Holding r fl o taken x.batch s) where
  sound h := h.1.inHand.sound
  keeps h := h.1.booked
  disturbed h hd := ⟨h.1.evolves (hw.disturbs hd), h.1.inHand.still_evolves (hw.disturbs hd) h.2⟩
  cut_disturbed h hd := h.evolves (hw.disturbs hd)
  pass h _ _ := ⟨h.1, fun m hm => h.2 m (by
    rw [← List.drop_drop] at hm
    exact List.mem_of_mem_drop hm)⟩
  fail h _ _ := ⟨h.1.inHand.asked, h.1.taken, h.1.accounts⟩
  turn {k b s₁ s₂ s₃ u page} h hu _ hpage hd ht := by
    have hs := hw.disturbs hd
    have hholding := h.1.evolves hs
    have hasc : r.Ascending (s₁.content u.key) := h.1.inHand.sound.ascending u.key
    have hreach := reaches_afterPage u.boundary limit hasc
    have hbetween := rowsBetween_afterPage u.boundary limit hasc
    rw [← hpage] at hreach hbetween
    obtain ⟨more, hmore⟩ := hs.1.content u.key
    have hasc' : r.Ascending (s₁.content u.key ++ more) := hmore ▸ hholding.inHand.sound.ascending _
    obtain ⟨hinHand, hahead⟩ := hholding.inHand.turned limit (hs.1.units_getElem? hu)
      (h.1.inHand.still_evolves hs h.2) ht (hmore ▸ hreach.append more)
      (hmore ▸ (hreach.rowsBetween_append hasc').trans hbetween)
    obtain ⟨ds, haccounts⟩ := hholding.accounts
    have horigins : s₃.origins o = s₂.origins o := by
      rw [Scene.origins, Scene.origins, ht.starts]
    refine ⟨⟨hinHand, (congrArg List.length ht.accepted).trans hholding.taken, ds, ?_⟩, hahead⟩
    rw [horigins]
    exact haccounts.of_same ht.content (ht.map_units fun _ => rfl) ht.starts ht.accepted

/-- A batch is rolled back as a whole. -/
lemma rollback_ensures (hw : w.Around r) {b : Batch} (hs : Holding r fl o taken b s) :
    (r.rollback b).Ensures w (Booked r fl o taken)
      (fun _ s' => Holding r fl o taken Batch.empty s') s := by
  refine hw.ensures_inside (fun _ _ h => h.booked) (fun h hd => h.evolves (hw.disturbs hd))
    fun s₁ hd => ⟨(hs.evolves (hw.disturbs hd)).booked, ?_⟩
  refine hw.ensures_exchange fun s₂ hd₂ => ?_
  have hback := ((hs.evolves (hw.disturbs hd)).evolves (hw.disturbs hd₂)).rollback
  exact ⟨hback.booked, fun s₃ hd₃ => hback.evolves (hw.disturbs hd₃)⟩

/-- What an attempt to hand a batch to the sink leaves: everything settled when the sink has taken
the batch, and otherwise the batch still in hand. -/
def attempted (r : Reader) (fl : Floor) (o : List Boundary) (taken : Nat) (b : Batch) :
    Except SinkError Unit → Scene → Prop
  | .ok (), s => Settled r fl s
  | .error _, s => Holding r fl o taken b s

/-- Each attempt to deliver settles the batch or leaves it in hand. -/
lemma emit_ensures (hw : w.Around r) {b : Batch} (hs : Holding r fl o taken b s) :
    (Activity.emit b.records).Ensures w (Booked r fl o taken)
      (fun outcome s' => (∀ e, outcome = .error e → Holding r fl o taken b s') ∧
        attempted r fl o taken b outcome s') s := by
  intro s₁ hd outcome s₂ ha
  have hs₁ : Holding r fl o taken b s₁ := hs.evolves (hw.disturbs hd)
  have hanswer := hw.answers ha
  cases outcome with
  | ok u =>
    obtain rfl : s₂ = s₁.accept b.records := hanswer
    obtain ⟨hsettled, hbooked⟩ := hs₁.accept
    exact ⟨hbooked, fun s₃ hd₃ => ⟨fun e h => (nomatch h), hsettled.evolves (hw.disturbs hd₃)⟩⟩
  | error e =>
    obtain rfl : s₂ = s₁ := hanswer
    exact ⟨hs₁.booked, fun s₃ hd₃ =>
      ⟨fun _ _ => hs₁.evolves (hw.disturbs hd₃), hs₁.evolves (hw.disturbs hd₃)⟩⟩

/-- A batch is delivered, which settles it, or else rolled back, which puts its rows back. -/
theorem deliver_ensures (hw : w.Around r) (retries : Nat) {b : Batch}
    (hs : Holding r fl o taken b s) :
    (r.deliver retries b).Ensures w (Booked r fl o taken) (fun _ s' => Settled r fl s') s := by
  unfold deliver
  split
  · next hempty =>
    have hnone : b.records = [] := List.isEmpty_iff.1 hempty
    exact fun s₁ hd => (hs.evolves (hw.disturbs hd)).settled_of_records_eq_nil hnone
  · have hretry : (Program.retry (Activity.emit b.records) longestDeliveryDelay retries
        firstDeliveryDelay).Ensures w (Booked r fl o taken) (attempted r fl o taken b) s := by
      refine .retry (fun s hs => emit_ensures hw hs) (fun outcome s s' h hd => ?_) _ _ hs
      cases outcome with
      | ok u => exact Settled.evolves h (hw.disturbs hd)
      | error e => exact Holding.evolves h (hw.disturbs hd)
    refine (hretry.mono fun outcome s₁ h => ?_).bind
    cases outcome with
    | ok u => exact fun s₂ hd => Settled.evolves h (hw.disturbs hd)
    | error e =>
      refine ((rollback_ensures hw h).mono fun _ s₂ hback => ?_).bind
      exact fun s₃ hd => (hback.evolves (hw.disturbs hd)).settled_of_records_eq_nil rfl

/-- A poll that begins with everything settled ends with everything settled. -/
theorem poll_ensures (hw : w.Around r) (p : PollerSettings) (hs : Settled r fl s) :
    (r.poll p).Ensures w (Booked r fl s.boundaries s.accepted.length)
      (fun _ s' => Settled r fl s') s := by
  have hmoves : ∀ m ∈ s.moves s.boundaries, m.Still := fun _ hm =>
    InHand.still_of_mem_moves_boundaries hs.sound hm
  have hbegin := hs.holding
  intro s₁ hd now s₂ ha
  obtain rfl : s₂ = s₁ := hw.answers ha
  have hs₁ := hbegin.evolves (hw.disturbs hd)
  have hstill := hbegin.inHand.still_evolves (k := 0) (hw.disturbs hd) hmoves
  refine ⟨hs₁.booked, ?_⟩
  have hread := (holding_sweep hw fl s.boundaries s.accepted.length (max p.batchSize 1) now).read hw
    (fun h => h.booked) (s := s₂) ⟨hs₁, hstill⟩
  refine (hread.mono fun outcome s₃ h => ?_).bind
  obtain ⟨n, -, hend⟩ := h
  cases outcome with
  | ok b =>
    refine ((deliver_ensures hw p.deliveryRetries hend.1).mono fun outcome s₄ h => ?_).bind
    cases outcome <;> exact fun s₅ hd => h.evolves (hw.disturbs hd)
  | error x =>
    refine ((deliver_ensures hw p.deliveryRetries hend).mono fun outcome s₄ h => ?_).bind
    cases outcome <;> exact fun s₅ hd => h.evolves (hw.disturbs hd)

end Reader

end TableTail
