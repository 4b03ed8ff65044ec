import MyQuic2.Core.Map
import MyQuic2.Core.Run

/-!
# Refreshing names in the background

A stale answer that was served asks for a refresh of its name. The registry holds for each
name the time from which a new attempt may start: a claim reserves the longest run of the
attempt and a pause behind it, and the end of the attempt leaves the pause alone.
-/

namespace MyQuic2

open List AList

/-- Times are in milliseconds. -/
def dnsRefreshCooldown : Nat := 5000

def dnsLookupTimeout : Nat := 5000

def dnsRefreshSweepMin : Nat := 256

def dnsCacheMax : Nat := 10240

/-- Names with an attempt in progress or one that ended within the pause. -/
structure RefreshRegistry where
  entries : Map String Nat := ∅
  /-- The number of entries at which the next sweep runs. -/
  sweepAt : Nat := dnsRefreshSweepMin

namespace RefreshRegistry

variable {r : RefreshRegistry} {key : String} {now : Nat}

section

variable (r : RefreshRegistry) (key : String) (now : Nat)

def sweep : RefreshRegistry :=
  if r.sweepAt ≤ r.entries.size then
    let entries := r.entries.retain fun _ til => now < til
    ⟨entries, max dnsRefreshSweepMin (min (2 * entries.size) dnsCacheMax)⟩
  else r

/-- Take the slot of a name, which is refused while an attempt runs or cools down. -/
def claimRefresh : Bool × RefreshRegistry :=
  if (r.entries.lookup key).any (now < ·) then (false, r)
  else
    let r := r.sweep now
    if dnsCacheMax ≤ r.entries.size then (false, r)
    else (true, { r with
      entries := r.entries.insert key (now + dnsLookupTimeout + dnsRefreshCooldown) })

/-- The drop of a claim leaves the pause running. -/
def dropClaim : RefreshRegistry :=
  match r.entries.lookup key with
  | some slot => { r with entries := r.entries.insert key (min slot (now + dnsRefreshCooldown)) }
  | none => r

end

lemma le_getD {o : Option Nat} {t past : Nat} (h : t ≤ o.getD past) (hnow : past ≤ now) :
    t ≤ o.getD now := by
  cases o with
  | none => exact h.trans hnow
  | some til => exact h

/-- A sweep keeps the slots that are still reserved, and may drop the others. -/
lemma lookup_sweep (r : RefreshRegistry) (now : Nat) (k : String) :
    (r.sweep now).entries.lookup k = r.entries.lookup k ∨
      (r.sweep now).entries.lookup k = (r.entries.lookup k).filter (now < ·) := by
  unfold sweep
  split
  · exact .inr (Map.lookup_retain ..)
  · exact .inl rfl

lemma lookup_sweep_of_lt {k : String} {til : Nat} (h : r.entries.lookup k = some til)
    (hlt : now < til) : (r.sweep now).entries.lookup k = some til := by
  rcases r.lookup_sweep now k with heq | heq <;> simp [heq, h, hlt]

lemma le_getD_sweep {k : String} {t past : Nat} (h : t ≤ (r.entries.lookup k).getD past)
    (hnow : past ≤ now) : t ≤ ((r.sweep now).entries.lookup k).getD now := by
  have hlater := le_getD h hnow
  rcases r.lookup_sweep now k with heq | heq
  · rwa [heq]
  rw [heq]
  cases hk : r.entries.lookup k with
  | none => simpa [hk] using hlater
  | some til =>
    simp only [hk, Option.getD_some, Option.filter_some] at hlater ⊢
    split
    · exact hlater
    · simp_all
      omega

lemma size_sweep_le : (r.sweep now).entries.size ≤ r.entries.size := by
  unfold sweep
  split
  · exact Map.size_retain_le ..
  · exact le_rfl

end RefreshRegistry

/-- The registry with the attempts that it let start. -/
structure RefreshRun where
  registry : RefreshRegistry := {}
  now : Nat := 0
  running : List (String × Nat) := []
  started : List (String × Nat) := []

namespace RefreshRun

inductive Event where
  | claim (key : String) (now : Nat)
  /-- The `i`-th attempt in progress ends. -/
  | drop (i : Nat) (now : Nat)

def Event.now : Event → Nat
  | claim _ now | drop _ now => now

def next (s : RefreshRun) : Event → RefreshRun
  | .claim key now =>
    match s.registry.claimRefresh key now with
    | (true, r) => ⟨r, now, (key, now) :: s.running, (key, now) :: s.started⟩
    | (false, r) => { s with registry := r, now := now }
  | .drop i now =>
    match s.running[i]? with
    | some (key, _) =>
      { s with registry := s.registry.dropClaim key now, now := now,
               running := s.running.eraseIdx i }
    | none => { s with now := now }

/-- The clock does not go back, and no attempt in progress is older than a lookup can be. -/
def Timely (s : RefreshRun) (ev : Event) : Prop :=
  s.now ≤ ev.now ∧ ∀ a ∈ s.running, ev.now ≤ a.2 + dnsLookupTimeout

instance (s : RefreshRun) (ev : Event) : Decidable (Timely s ev) :=
  inferInstanceAs (Decidable (_ ∧ _))

/-- Attempts do not overlap, are a pause apart, and keep their slots in a bounded registry. -/
structure Separate (s : RefreshRun) : Prop where
  alone : (s.running.map Prod.fst).Nodup
  apart : s.started.Pairwise fun later a => later.1 = a.1 → a.2 + dnsRefreshCooldown ≤ later.2
  slot : ∀ a ∈ s.running,
    s.registry.entries.lookup a.1 = some (a.2 + dnsLookupTimeout + dnsRefreshCooldown)
  cap : s.registry.entries.size ≤ dnsCacheMax

/-- With them, the pause of every attempt is over when its name has no slot, and else by the
time that the slot holds. -/
structure Paced (s : RefreshRun) : Prop extends Separate s where
  since : ∀ a ∈ s.started, a.2 ≤ s.now
  cooled : ∀ a ∈ s.started, a.2 + dnsRefreshCooldown ≤ (s.registry.entries.lookup a.1).getD s.now

variable {s : RefreshRun} {key : String} {now : Nat}

open RefreshRegistry

lemma Paced.later (h : Paced s) (hnow : s.now ≤ now) : Paced { s with now := now } where
  toSeparate := ⟨h.alone, h.apart, h.slot, h.cap⟩
  since a ha := (h.since a ha).trans hnow
  cooled a ha := le_getD (h.cooled a ha) hnow

section

variable (h : Paced s) (hnow : s.now ≤ now) (htime : ∀ a ∈ s.running, now ≤ a.2 + dnsLookupTimeout)
include h hnow htime

lemma Paced.sweep : Paced { s with registry := s.registry.sweep now, now := now } where
  alone := h.alone
  apart := h.apart
  slot a ha := by
    refine lookup_sweep_of_lt (h.slot a ha) ?_
    have := htime a ha
    unfold dnsRefreshCooldown
    omega
  cap := (s.registry.size_sweep_le).trans h.cap
  since a ha := (h.since a ha).trans hnow
  cooled a ha := le_getD_sweep (h.cooled a ha) hnow

/-- A slot that may be taken belongs to no attempt in progress, and its pause is over. -/
lemma Paced.free (hfree : (s.registry.entries.lookup key).any (now < ·) = false) :
    (∀ a ∈ s.running, a.1 ≠ key) ∧ ∀ a ∈ s.started, key = a.1 → a.2 + dnsRefreshCooldown ≤ now := by
  constructor
  · rintro a ha rfl
    have := htime a ha
    simp [h.slot a ha, dnsRefreshCooldown] at hfree
    omega
  · rintro a ha rfl
    have hcooled := h.cooled a ha
    cases hslot : s.registry.entries.lookup a.1 <;> simp [hslot] at hcooled hfree <;> omega

lemma Paced.claim : Paced (s.next (.claim key now)) := by
  have hsweep := h.sweep hnow htime
  simp only [next, claimRefresh]
  by_cases hbusy : (s.registry.entries.lookup key).any (now < ·) = true
  · rw [if_pos hbusy]
    exact h.later hnow
  rw [if_neg hbusy]
  by_cases hfull : dnsCacheMax ≤ (s.registry.sweep now).entries.size
  · rw [if_pos hfull]
    exact hsweep
  rw [if_neg hfull]
  obtain ⟨hother, hpause⟩ := h.free hnow htime (by simpa using hbusy)
  refine ⟨⟨?_, ?_, ?_, ?_⟩, ?_, ?_⟩
  · simpa using ⟨fun t ha => hother _ ha rfl, h.alone⟩
  · exact pairwise_cons.mpr ⟨hpause, h.apart⟩
  · rintro a (_ | ⟨_, ha⟩)
    · exact lookup_insert _
    · exact (lookup_insert_ne (hother a ha)).trans (hsweep.slot a ha)
  · exact (Map.size_insert_le ..).trans (Nat.lt_of_not_le hfull)
  · rintro a (_ | ⟨_, ha⟩)
    · exact le_rfl
    · exact hsweep.since a ha
  rintro ⟨k, t⟩ ha
  by_cases hkey : k = key
  · subst hkey
    have hsince : t ≤ now := by
      rcases ha with _ | ⟨_, ha⟩
      · exact le_rfl
      · exact hsweep.since _ ha
    simp only [lookup_insert, Option.getD_some]
    omega
  · rcases ha with _ | ⟨_, ha⟩
    · exact absurd rfl hkey
    · simpa [lookup_insert_ne hkey] using hsweep.cooled _ ha

end

lemma Paced.drop (h : Paced s) (hnow : s.now ≤ now) (i : Nat) : Paced (s.next (.drop i now)) := by
  have hlater := h.later hnow
  simp only [next]
  split
  · rename_i k start hi
    have hslot := h.slot _ (mem_of_getElem? hi)
    -- The other attempts in progress are for other names.
    have hother : ∀ a ∈ s.running.eraseIdx i, a.1 ≠ k := by
      rintro a ha rfl
      obtain ⟨j, hne, hj⟩ := List.mem_eraseIdx_iff_getElem?.mp ha
      obtain ⟨hlt, -⟩ := List.getElem?_eq_some_iff.mp hj
      refine hne ((List.getElem?_inj (by simpa using hlt) h.alone).mp ?_)
      simp [hi, hj]
    simp only [dropClaim, hslot]
    refine ⟨⟨?_, h.apart, ?_, ?_⟩, hlater.since, ?_⟩
    · exact h.alone.sublist ((eraseIdx_sublist ..).map _)
    · intro a ha
      rw [lookup_insert_ne (hother a ha)]
      exact h.slot a ((eraseIdx_sublist ..).mem ha)
    · exact (Map.size_insert_of_lookup hslot _).le.trans h.cap
    rintro ⟨k', t⟩ ha
    have hcooled := hlater.cooled _ ha
    by_cases hkey : k' = k
    · subst hkey
      have := hlater.since _ ha
      simp only [hslot, lookup_insert, Option.getD_some] at this hcooled ⊢
      omega
    · rwa [lookup_insert_ne hkey]
  · exact hlater

/-- On a clock that does not go back and with attempts that end within the timeout of a
lookup, attempts for one name never overlap and start a pause apart, each keeps its slot
while it runs, and the registry stays within its bound. -/
theorem refreshes_apart (es : List Event) (h : Along next Timely {} es) :
    Separate (after next {} es) := by
  have hinv : Paced {} := ⟨⟨.nil, .nil, nofun, Nat.zero_le _⟩, nofun, nofun⟩
  have hstep : ∀ s ev, Paced s → Timely s ev → Paced (next s ev) := by
    intro s ev hs hev
    cases ev with
    | claim key now => exact hs.claim hev.1 hev.2
    | drop i now => exact hs.drop hev.1 i
  exact (after_of_invariant hstep hinv h).toSeparate

/-- A name is refreshed again a pause after its attempt ended. -/
theorem refreshes_apart_again :
    Separate (after next {} [.claim "a" 10, .claim "b" 20, .claim "a" 30, .drop 1 40, .drop 0 50,
      .claim "a" 5030, .claim "a" 5040]) ∧
    (after next {} [.claim "a" 10, .claim "b" 20, .claim "a" 30, .drop 1 40, .drop 0 50,
      .claim "a" 5030, .claim "a" 5040]).started = [("a", 5040), ("b", 20), ("a", 10)] :=
  ⟨refreshes_apart _ (by decide +kernel), by decide +kernel⟩

end RefreshRun

end MyQuic2
