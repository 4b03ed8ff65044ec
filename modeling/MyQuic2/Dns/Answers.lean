import MyQuic2.Tcp.Dial

/-!
# Trimming an answer

A cached answer keeps half of its places for either family, and a family that does not
fill its half leaves the rest to the other one. The candidates of a dial take the
families in turn.
-/

namespace MyQuic2

open List

section

variable {α : Type} {n : Nat} {wanted other : List α}

lemma length_alternate :
    (alternate n wanted other).length = min n (wanted.length + other.length) := by
  induction n generalizing wanted other with
  | zero => simp [alternate]
  | succ n ih =>
    cases wanted with
    | nil => cases other <;> simp [alternate, ih]
    | cons x wanted =>
      simp only [alternate, length_cons, ih]
      omega

/-- The elements of either list keep their order, and the first ones are taken. -/
lemma filter_alternate {p : α → Bool} (hwanted : ∀ a ∈ wanted, p a = true)
    (hother : ∀ a ∈ other, p a = false) :
    (alternate n wanted other).filter p <+: wanted ∧
      ((alternate n wanted other).filter fun a => !p a) <+: other := by
  induction n generalizing wanted other p with
  | zero => simp [alternate]
  | succ n ih =>
    -- The lists change places, so the family that is looked for does too.
    cases wanted with
    | nil =>
      cases other with
      | nil => simp [alternate]
      | cons y other =>
        obtain ⟨hy, hrest⟩ := forall_mem_cons.mp hother
        obtain ⟨hsame, hnone⟩ := @ih other [] (fun a => !p a) (by simpa using hrest) (by simp)
        simp only [Bool.not_not] at hnone
        rw [alternate, filter_cons_of_neg (by simp [hy]), filter_cons_of_pos (by simp [hy])]
        exact ⟨hnone, (prefix_cons_inj y).mpr hsame⟩
    | cons x wanted =>
      obtain ⟨hx, hrest⟩ := forall_mem_cons.mp hwanted
      obtain ⟨hsame, hflip⟩ := @ih other wanted (fun a => !p a) (by simpa using hother)
        (by simpa using hrest)
      simp only [Bool.not_not] at hflip
      rw [alternate, filter_cons_of_pos hx, filter_cons_of_neg (by simp [hx])]
      exact ⟨(prefix_cons_inj x).mpr hflip, hsame⟩

/-- As long as the other list lasts, the elements come from the two in turn. -/
lemma getElem?_alternate {i : Nat} (hi : i < n) (hwanted : i < 2 * wanted.length)
    (hother : i ≤ 2 * other.length) :
    (alternate n wanted other)[i]? = if i % 2 = 0 then wanted[i / 2]? else other[i / 2]? := by
  induction i generalizing n wanted other with
  | zero =>
    obtain ⟨x, wanted, rfl⟩ := exists_cons_of_length_pos (by omega : 0 < wanted.length)
    obtain ⟨n, rfl⟩ := Nat.exists_eq_add_one.mpr hi
    simp [alternate]
  | succ i ih =>
    obtain ⟨x, wanted, rfl⟩ := exists_cons_of_length_pos (by omega : 0 < wanted.length)
    obtain ⟨n, rfl⟩ := Nat.exists_eq_add_one.mpr (by omega : 0 < n)
    rw [length_cons] at hwanted
    rw [alternate, getElem?_cons_succ, ih (by omega) (by omega) (by omega)]
    rcases Nat.even_or_odd' i with ⟨m, rfl | rfl⟩
    · rw [if_pos (by omega), if_neg (by omega), show 2 * m / 2 = (2 * m + 1) / 2 by omega]
    · rw [if_neg (by omega), if_pos (by omega), show (2 * m + 1 + 1) / 2 = m + 1 by omega,
        getElem?_cons_succ, show (2 * m + 1) / 2 = m by omega]

end

/-- Addresses that an entry of the shared cache keeps. -/
def dnsCacheMaxAddrs : Nat := 32

def IpAddr.isIpv4 : IpAddr → Bool
  | v4 _ => true
  | v6 _ => false

namespace IpPreference

def sortKeyIp : IpPreference → IpAddr → Nat
  | ipv6, ip => if ip.isIpv4 then 1 else 0
  | ipv4, ip => if ip.isIpv4 then 0 else 1

/-- The address is of the preferred family. -/
def prefers (pref : IpPreference) (ip : IpAddr) : Bool := pref.sortKeyIp ip == 0

end IpPreference

/-- The addresses of an answer that the shared cache keeps, the preferred family first. -/
def prepareCacheIps (pref : IpPreference) (ips : List IpAddr) : List IpAddr :=
  let (preferred, other) := ips.partition pref.prefers
  let half := dnsCacheMaxAddrs / 2
  let other := other.take (dnsCacheMaxAddrs - min preferred.length half)
  let preferred := preferred.take (dnsCacheMaxAddrs - other.length)
  preferred ++ other

variable (pref : IpPreference)

/-- Either family of what the cache keeps. -/
lemma filter_prepareCacheIps (ips : List IpAddr) :
    let preferred := ips.filter pref.prefers
    let other := ips.filter fun ip => !pref.prefers ip
    let room := dnsCacheMaxAddrs - min preferred.length (dnsCacheMaxAddrs / 2)
    prepareCacheIps pref ips =
        preferred.take (dnsCacheMaxAddrs - (other.take room).length) ++ other.take room ∧
      (prepareCacheIps pref ips).filter pref.prefers =
        preferred.take (dnsCacheMaxAddrs - (other.take room).length) ∧
      ((prepareCacheIps pref ips).filter fun ip => !pref.prefers ip) = other.take room := by
  intro preferred other room
  have hkept : prepareCacheIps pref ips =
      preferred.take (dnsCacheMaxAddrs - (other.take room).length) ++ other.take room := by
    rw [prepareCacheIps, partition_eq_filter_filter]
    rfl
  have hpreferred : ∀ k, ∀ ip ∈ preferred.take k, pref.prefers ip = true :=
    fun k ip hip => (mem_filter.mp (mem_of_mem_take hip)).2
  have hother : ∀ k, ∀ ip ∈ other.take k, (!pref.prefers ip) = true :=
    fun k ip hip => (mem_filter.mp (mem_of_mem_take hip)).2
  refine ⟨hkept, ?_, ?_⟩ <;> rw [hkept, filter_append]
  · rw [filter_eq_self.mpr (hpreferred _), filter_eq_nil_iff.mpr, append_nil]
    intro ip hip
    simpa using hother _ ip hip
  · rw [filter_eq_self.mpr (hother _), filter_eq_nil_iff.mpr, nil_append]
    intro ip hip
    simpa using hpreferred _ ip hip

/-- Either family of the candidates, in turn. -/
lemma dialCandidatesFor_spec (addrs : List SocketAddr) (max i : Nat) (hmax : i < Nat.max max 1)
    (hi : i < 2 * min (pref.first addrs).length (pref.second addrs).length) :
    ∃ a, (dialCandidatesFor pref addrs max)[i]? = some a ∧
      if i % 2 = 0 then a ∈ pref.first addrs else a ∈ pref.second addrs := by
  rw [dialCandidatesFor, getElem?_alternate hmax (by omega) (by omega)]
  split
  · exact ⟨_, getElem?_eq_getElem (by omega), getElem_mem _⟩
  · exact ⟨_, getElem?_eq_getElem (by omega), getElem_mem _⟩

/-- An answer is cut to the size of an entry, with the preferred family first, each family in its
order and at least half of the places open to either; and the candidates of a dial are as many as
it allows, each family in its order, with the families in turn for as long as both last. -/
theorem answers_trimmed_fairly :
    (∀ ips, let kept := prepareCacheIps pref ips
      kept.length = min 32 ips.length ∧
      kept = kept.filter pref.prefers ++ kept.filter (fun ip => !pref.prefers ip) ∧
      kept.filter pref.prefers <+: ips.filter pref.prefers ∧
      (kept.filter fun ip => !pref.prefers ip) <+: (ips.filter fun ip => !pref.prefers ip) ∧
      min (ips.filter pref.prefers).length 16 ≤ (kept.filter pref.prefers).length ∧
      min (ips.filter fun ip => !pref.prefers ip).length 16 ≤
        (kept.filter fun ip => !pref.prefers ip).length) ∧
    ∀ addrs max, let cands := dialCandidatesFor pref addrs max
      cands.length = min (Nat.max max 1) addrs.length ∧
      pref.first cands <+: pref.first addrs ∧ pref.second cands <+: pref.second addrs ∧
      (∀ i a, i < 2 * min (pref.first addrs).length (pref.second addrs).length →
        cands[i]? = some a → (a ∈ pref.first addrs ↔ i % 2 = 0)) ∧
      (2 ≤ max → pref.first addrs ≠ [] → pref.second addrs ≠ [] →
        pref.first cands ≠ [] ∧ pref.second cands ≠ []) := by
  constructor
  · intro ips
    obtain ⟨hkept, hpreferred, hother⟩ := filter_prepareCacheIps pref ips
    have hlength := ips.length_eq_length_filter_add pref.prefers
    refine ⟨?_, ?_, ?_, ?_, ?_, ?_⟩
    · rw [hkept, length_append]
      simp only [length_take, dnsCacheMaxAddrs]
      omega
    · rw [hpreferred, hother, ← hkept]
    · exact hpreferred ▸ take_prefix ..
    · exact hother ▸ take_prefix ..
    · rw [hpreferred]
      simp only [length_take, dnsCacheMaxAddrs]
      omega
    · rw [hother]
      simp only [length_take, dnsCacheMaxAddrs]
      omega
  intro addrs max cands
  have hsplit := addrs.length_eq_length_filter_add fun a => a.isIpv4 == (pref == .ipv4)
  have hfirst : ∀ a ∈ pref.first addrs, (a.isIpv4 == (pref == .ipv4)) = true :=
    fun a ha => (mem_filter.mp ha).2
  have hsecond : ∀ a ∈ pref.second addrs, (a.isIpv4 == (pref == .ipv4)) = false :=
    fun a ha => by simpa [bne] using (mem_filter.mp ha).2
  obtain ⟨horder, horder'⟩ := @filter_alternate _ (Nat.max max 1) _ _ _ hfirst hsecond
  have hlength : cands.length = min (Nat.max max 1) addrs.length :=
    length_alternate.trans (congrArg _ hsplit.symm)
  refine ⟨hlength, horder, horder', ?_, ?_⟩
  · intro i a hi ha
    have hmax : i < Nat.max max 1 := by
      have hlt := (List.getElem?_eq_some_iff.mp ha).1
      omega
    obtain ⟨b, hb, hturn⟩ := dialCandidatesFor_spec pref addrs max i hmax hi
    obtain rfl : a = b := Option.some.inj (ha.symm.trans hb)
    split at hturn
    · rename_i heven
      simp [hturn, heven]
    · rename_i hodd
      refine iff_of_false (fun hmem => ?_) hodd
      have := hsecond a hturn
      rw [hfirst a hmem] at this
      cases this
  · intro hmax hne hne'
    have hpos := length_pos_of_ne_nil hne
    have hpos' := length_pos_of_ne_nil hne'
    have htwo : 1 < Nat.max max 1 := hmax.trans (Nat.le_max_left ..)
    obtain ⟨a, ha, hfst⟩ := dialCandidatesFor_spec pref addrs max 0 (by omega) (by omega)
    obtain ⟨b, hb, hsnd⟩ := dialCandidatesFor_spec pref addrs max 1 htwo (by omega)
    exact ⟨ne_nil_of_mem (mem_filter.mpr ⟨mem_of_getElem? ha, hfirst a hfst⟩),
      ne_nil_of_mem (mem_filter.mpr ⟨mem_of_getElem? hb, by
        simp [bne, hsecond b hsnd]⟩)⟩

end MyQuic2
