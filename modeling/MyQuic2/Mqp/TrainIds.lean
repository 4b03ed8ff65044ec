import MyQuic2.Core.Probe
import MyQuic2.Mqp.Adapter

/-!
# The flows of a train

Client and server look up the ids of a train in one batch. Each id takes a slot when it
is first met, found again by linear probing, and an item reads the slot of its own id.
-/

namespace MyQuic2.Wire.TrainView

open List

def trainHashCap : Nat := 128

/-- The cell where the probe for an id starts. -/
def trainHash (wireId : UInt32) : Nat := (wireId * 0x9E3779B1).toNat % trainHashCap

/-- The slot of every item, and the slots; `none` if a probe went round the whole table. -/
def slotItems : List UInt32 → ProbeTable UInt32 → Option (List Nat × ProbeTable UInt32)
  | [], t => some ([], t)
  | wireId :: ids, t => do
    let (slot, t) ← t.probe trainHashCap wireId trainHashCap (trainHash wireId)
    let (itemSlot, t) ← slotItems ids t
    some (slot :: itemSlot, t)

variable {β : Type}

/-- All lookups under one hold of the lock. -/
def getBatch (get : UInt32 → Option β) (slots : List UInt32) : List (UInt32 × Option β) :=
  slots.map fun wireId => (wireId, get wireId)

/-- The binding every item gets. -/
def bindings (get : UInt32 → Option β) (ids : List UInt32) : Option (List (Option β)) := do
  let (itemSlot, t) ← slotItems ids ⟨fun _ => none, []⟩
  let slots := getBatch get t.keys
  some (itemSlot.map fun slot => (slots.getD slot (0, none)).2)

/-- What the client finds for the items of a train. -/
abbrev dispatchR2Train (get : UInt32 → Option β) := bindings get

/-- What the server finds for them. -/
abbrev r2IngressTrain (get : UInt32 → Option β) := bindings get

lemma slotItems_spec {ids : List UInt32} {t : ProbeTable UInt32}
    (h : t.Probed trainHashCap trainHash) (hlen : t.keys.length + ids.length ≤ trainHashCap) :
    ∃ itemSlot t', slotItems ids t = some (itemSlot, t') ∧ t'.Probed trainHashCap trainHash ∧
      t.keys <+: t'.keys ∧ (∀ x, x ∈ t'.keys ↔ x ∈ t.keys ∨ x ∈ ids) ∧
      itemSlot.map (t'.keys[·]?) = ids.map some := by
  induction ids generalizing t with
  | nil => exact ⟨[], t, rfl, h, prefix_rfl, by simp, rfl⟩
  | cons wireId ids ih =>
    rw [length_cons] at hlen
    obtain ⟨slot, t₁, hprobe, h₁, hslot, hkeys⟩ :=
      h.probe (show trainHash wireId < _ from Nat.mod_lt _ (by decide)) (by omega)
    have hpre : t.keys <+: t₁.keys := by
      rw [hkeys]
      split <;> simp
    obtain ⟨itemSlot, t₂, hrest, h₂, hpre₂, hmem, hread⟩ := ih h₁ (by rw [hkeys]; grind)
    refine ⟨slot :: itemSlot, t₂, by simp [slotItems, hprobe, hrest], h₂, hpre.trans hpre₂, ?_, ?_⟩
    · grind
    · obtain ⟨later, hlater⟩ := hpre₂
      have hkept : t₂.keys[slot]? = some wireId := by grind
      simp [hread, hkept]

/-- The adapter's iterator yields a list, which ends where an item has no id. -/
lemma exists_yields_rev3 {it : Rev3.TrainItems} {xs : List (UInt16 × Bytes)}
    (hx : Yields Rev3.TrainItems.next it xs) :
    ∃ ys, Yields TrainItemIter.next (.rev3 it) ys ∧ ys.length ≤ xs.length := by
  induction hx with
  | done hnone => exact ⟨[], .done (by simp [TrainItemIter.next, hnone]), le_rfl⟩
  | @more _ _ x _ hnext _ ih =>
    obtain ⟨ys, hys, hle⟩ := ih
    cases hid : wireIdForFid x.1 with
    | none => exact ⟨[], .done (by simp [TrainItemIter.next, hnext, hid]), Nat.zero_le _⟩
    | some id =>
      exact ⟨(id, x.2) :: ys, .more (by simp [TrainItemIter.next, hnext, hid]) hys,
        Nat.succ_le_succ hle⟩

/-- A decoded train has a list of items, and the codec bounds their number. -/
lemma exists_items {w : Wire} {d : Bytes} {v : TrainView} (hdec : w.decodeTrain d = .ok v) :
    ∃ items, Yields TrainItemIter.next v.items items ∧ items.length ≤ 64 := by
  cases w with
  | rev2 =>
    obtain ⟨f, hf, hv⟩ := bind_eq_ok.mp hdec
    cases hv
    obtain ⟨hdr, cells, -, htrain⟩ := Rev2.train_of_decodeTrain hf
    obtain ⟨last, hwalk, -, hend⟩ := htrain.walk
    refine ⟨_, yields_rev2 (hwalk.yields hend), ?_⟩
    rw [length_map, htrain.count]
    exact (Rev2.validTrainCount_iff.mp htrain.valid).2
  | rev3 =>
    obtain ⟨f, hf, hv⟩ := bind_eq_ok.mp hdec
    cases hv
    obtain ⟨hdr, cells, -, htrain⟩ := Rev3.train_of_decodeTrain hf
    obtain ⟨last, hwalk, -, hend⟩ := htrain.walk
    obtain ⟨ys, hys, hle⟩ := exists_yields_rev3 (hwalk.yields hend)
    rw [length_map, htrain.count] at hle
    exact ⟨ys, hys, hle.trans (Rev3.validTrainCount_iff.mp htrain.valid).2⟩

/-- For every train that is decoded no probe goes round the table, every id takes one slot of
the 64, and every item gets the binding of its own id. -/
theorem batch_resolves_each (w : Wire) (d : Bytes) (v : TrainView)
    (items : List (UInt32 × Bytes)) (hdec : w.decodeTrain d = .ok v)
    (hitems : Yields TrainItemIter.next v.items items) (get : UInt32 → Option β) :
    (∃ itemSlot t, slotItems (items.map Prod.fst) ⟨fun _ => none, []⟩ = some (itemSlot, t) ∧
      t.keys.Nodup ∧ t.keys.length ≤ 64 ∧ ∀ x, x ∈ t.keys ↔ x ∈ items.map Prod.fst) ∧
    dispatchR2Train get (items.map Prod.fst) = some (items.map fun item => get item.1) ∧
    r2IngressTrain get (items.map Prod.fst) = some (items.map fun item => get item.1) := by
  obtain ⟨_, hyields, hlen⟩ := exists_items hdec
  rw [← hitems.unique hyields] at hlen
  obtain ⟨itemSlot, t, hslots, hprobed, -, hmem, hread⟩ :=
    slotItems_spec ProbeTable.probed_empty
      (show _ + (items.map Prod.fst).length ≤ _ by simp [trainHashCap]; omega)
  simp only [not_mem_nil, false_or] at hmem
  refine ⟨⟨itemSlot, t, hslots, hprobed.nodup, ?_, hmem⟩, and_self_iff.mpr ?_⟩
  · have hsub := subperm_of_subset hprobed.nodup fun x hx => (hmem x).mp hx
    simpa using hsub.length_le.trans (by simpa using hlen)
  · have hslot : ∀ slot, ((getBatch get t.keys).getD slot (0, none)).2 =
        (t.keys[slot]?).bind get := fun slot => by
      cases h : t.keys[slot]? <;> simp [getBatch, getD_eq_getElem?_getD, h]
    have hall := congrArg (List.map (Option.bind · get)) hread
    simp only [bindings, hslots, hslot, Option.bind_eq_bind, Option.bind_some]
    simpa [Function.comp_def] using hall

/-- Two ids that start at one cell, one of them twice. -/
theorem batch_resolves_each_repeated :
    (∃ itemSlot t, slotItems [9, 137, 9] ⟨fun _ => none, []⟩ = some (itemSlot, t) ∧
      t.keys.Nodup ∧ t.keys.length ≤ 64 ∧ ∀ x, x ∈ t.keys ↔ x ∈ [9, 137, 9]) ∧
    dispatchR2Train some [9, 137, 9] = some [some 9, some 137, some 9] ∧
    r2IngressTrain some [9, 137, 9] = some [some 9, some 137, some 9] :=
  batch_resolves_each .rev2 [4, 1, 3, 2, 9, 0x89, 1, 0, 0, 1, 0, 0, 0]
    (.rev2 ⟨1, 3, 2, [9, 137], [0, 0, 1, 0, 0, 0]⟩) [(9, []), (137, []), (9, [])] rfl
    (.more rfl (.more rfl (.more rfl (.done rfl)))) some

end MyQuic2.Wire.TrainView
