import MyQuic2.Mqp.Rev2.TrainGrammar
import MyQuic2.Mqp.Rev3.TrainGrammar

/-!
# Decoder and iterator agree on trains

On both wires a train is validated eagerly by one reader and iterated lazily by
another. Whatever octets arrive, an accepted frame is iterated item by item
without loss, overlap or rest.
-/

namespace MyQuic2

/-- The iterator yields `count` items, each of a listed flow and behind a header of its own,
and headers and payloads tile the octets it starts with. -/
def DrainsExactly {σ ι : Type} (next : σ → Option (ι × Bytes) × σ) (left : σ → Bytes)
    (header : Bytes → ι × Bytes → Prop) (flows : List ι) (count : Nat) (start : σ) : Prop :=
  ∃ (cells : List (Bytes × (ι × Bytes))) (last : σ),
    Walk next left Prod.snd start cells last ∧ left last = [] ∧
    Yields next start (cells.map Prod.snd) ∧ cells.length = count ∧
    left start = flatCells Prod.snd cells ∧
    ∀ c ∈ cells, header c.1 c.2 ∧ c.2.1 ∈ flows

lemma Walk.drainsExactly {σ ι : Type} {next : σ → Option (ι × Bytes) × σ} {left : σ → Bytes}
    {header : Bytes → ι × Bytes → Prop} {flows : List ι} {count : Nat} {start last : σ}
    {cells : List (Bytes × (ι × Bytes))} (h : Walk next left Prod.snd start cells last)
    (hleft : left last = []) (hend : (next last).1 = none) (hcount : cells.length = count)
    (hcells : ∀ c ∈ cells, header c.1 c.2 ∧ c.2.1 ∈ flows) :
    DrainsExactly next left header flows count start := by
  have htiles := h.left_eq
  rw [hleft, List.append_nil] at htiles
  exact ⟨cells, last, h, hleft, h.yields hend, hcount, htiles, hcells⟩

/-- On both wires an accepted train is a frame header followed by octets that its iterator
drains exactly. -/
theorem train_decoder_iterator_agree (b : Bytes) :
    (∀ f, Rev2.decodeTrain b = .ok f →
      (∃ hdr, b = hdr ++ f.itemBytes ∧ Rev2.FrameHeader f hdr) ∧
      DrainsExactly Rev2.TrainItems.next Rev2.TrainItems.items (Rev2.ItemHeader f) f.flows
        f.count.toNat f.items) ∧
    (∀ f, Rev3.decodeTrain b = .ok f →
      (∃ hdr, b = hdr ++ f.itemBytes ∧ Rev3.FrameHeader f hdr) ∧
      DrainsExactly Rev3.TrainItems.next Rev3.TrainItems.items (Rev3.ItemHeader f) f.flows
        f.count.toNat f.items) := by
  constructor
  · intro f h
    obtain ⟨hdr, cells, hb, htrain⟩ := Rev2.train_of_decodeTrain h
    obtain ⟨last, hwalk, hleft, hend⟩ := htrain.walk
    refine ⟨⟨hdr, hb, htrain.header⟩, hwalk.drainsExactly hleft hend htrain.count ?_⟩
    intro c hc
    exact ⟨htrain.items c hc, (htrain.items c hc).mem_flows⟩
  · intro f h
    obtain ⟨hdr, cells, hb, htrain⟩ := Rev3.train_of_decodeTrain h
    obtain ⟨last, hwalk, hleft, hend⟩ := htrain.walk
    refine ⟨⟨hdr, hb, htrain.header⟩, hwalk.drainsExactly hleft hend htrain.count ?_⟩
    intro c hc
    exact ⟨htrain.items c hc, (htrain.items c hc).mem_flows⟩

end MyQuic2
