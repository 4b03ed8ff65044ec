import MyQuic2.Udp.StageDrain

/-!
# The uplink queue window

The client admits a payload while what waits for the wire is within a byte budget.
The free space of the connection's DATAGRAM buffer enters that sum. A cache keeps
the last exact reading and the payload octets admitted since, so that most payloads
are admitted without asking the connection again.
-/

namespace MyQuic2

/-- Payload octets admitted since the hint, in the low half of the word. -/
def sinceMask : UInt64 := 0xFFFFFFFF

/-- The last exact reading and the octets admitted since, as `(hint << 32) | since`. -/
structure SpaceCache where
  packed : UInt64

namespace SpaceCache

section

variable (c : SpaceCache)

def hint : Nat := (c.packed >>> 32).toNat

def since : Nat := (c.packed &&& sinceMask).toNat

/-- Estimate of the free space. -/
def space : Nat := c.hint - c.since

/-- Account for an admitted payload; the low half saturates. -/
def noteAdmitted (len : Nat) : SpaceCache :=
  let len := min len sinceMask.toNat
  let since := min ((c.packed &&& sinceMask).toNat + len) sinceMask.toNat
  ⟨(c.packed &&& ~~~sinceMask) ||| UInt64.ofNat since⟩

def observe : UInt64 := c.packed

/-- Publish an exact reading, unless the word has changed since it was observed. -/
def resample (observed : UInt64) (space : Nat) : SpaceCache :=
  let hint := min space sinceMask.toNat
  if c.packed = observed then ⟨UInt64.ofNat hint <<< 32⟩ else c

end

/-- No reading. -/
def clear : SpaceCache := ⟨0⟩

variable (c : SpaceCache)

lemma sinceMask_toNat : sinceMask.toNat = 2 ^ 32 - 1 := rfl

lemma hint_eq : c.hint = c.packed.toNat / 2 ^ 32 := by
  unfold hint
  rw [UInt64.toNat_shiftRight, Nat.shiftRight_eq_div_pow]
  rfl

lemma since_eq : c.since = c.packed.toNat % 2 ^ 32 := by
  unfold since
  rw [UInt64.toNat_and, sinceMask_toNat, Nat.and_two_pow_sub_one_eq_mod]

lemma toNat_and_not_sinceMask (v : UInt64) :
    (v &&& ~~~sinceMask).toNat = (v.toNat >>> 32) <<< 32 := by
  have hmask : (~~~sinceMask).toNat = (2 ^ 32 - 1) <<< 32 := by decide
  rw [UInt64.toNat_and, hmask]
  refine Nat.eq_of_testBit_eq fun i => ?_
  rw [Nat.testBit_and, Nat.testBit_shiftLeft, Nat.testBit_shiftLeft, Nat.testBit_shiftRight,
    Nat.testBit_two_pow_sub_one]
  by_cases hlow : 32 ≤ i
  · by_cases hhigh : i < 64
    · have hindex : i - 32 < 32 := by omega
      simp [hlow, hindex]
    have hbit : v.toNat.testBit i = false :=
      Nat.testBit_lt_two_pow (v.toNat_lt.trans_le (Nat.pow_le_pow_right (by decide) (by omega)))
    simp [hlow, hbit]
  · simp [hlow]

lemma noteAdmitted_packed (len : Nat) : (c.noteAdmitted len).packed.toNat =
    c.hint * 2 ^ 32 + min (c.since + len) (2 ^ 32 - 1) := by
  have hsince : min (c.since + min len sinceMask.toNat) sinceMask.toNat =
      min (c.since + len) (2 ^ 32 - 1) := by
    rw [sinceMask_toNat]
    omega
  unfold noteAdmitted
  rw [UInt64.toNat_or, toNat_and_not_sinceMask, UInt64.toNat_ofNat']
  change _ ||| (min (c.since + min len sinceMask.toNat) sinceMask.toNat) % 2 ^ 64 = _
  rw [hsince, Nat.mod_eq_of_lt (by omega), ← Nat.shiftLeft_add_eq_or_of_lt (by omega),
    Nat.shiftLeft_eq, Nat.shiftRight_eq_div_pow, hint_eq]

@[simp] lemma hint_noteAdmitted (len : Nat) : (c.noteAdmitted len).hint = c.hint := by
  rw [hint_eq (c.noteAdmitted len), noteAdmitted_packed]
  omega

@[simp] lemma since_noteAdmitted (len : Nat) :
    (c.noteAdmitted len).since = min (c.since + len) (2 ^ 32 - 1) := by
  rw [since_eq (c.noteAdmitted len), noteAdmitted_packed]
  omega

lemma resample_packed (space : Nat) : (c.resample c.observe space).packed.toNat =
    min space (2 ^ 32 - 1) * 2 ^ 32 := by
  unfold resample observe
  rw [if_pos rfl, UInt64.toNat_shiftLeft, UInt64.toNat_ofNat', sinceMask_toNat]
  change (_ % 2 ^ 64) <<< 32 % 2 ^ 64 = _
  omega

@[simp] lemma hint_resample (space : Nat) :
    (c.resample c.observe space).hint = min space (2 ^ 32 - 1) := by
  rw [hint_eq, resample_packed]
  omega

@[simp] lemma hint_clear : clear.hint = 0 := by decide

@[simp] lemma since_resample (space : Nat) : (c.resample c.observe space).since = 0 := by
  rw [since_eq, resample_packed]
  omega

end SpaceCache

def udpQueueFloorBytes : Nat := 8 * 1024

def r2StageMaxBytes : Nat := 256 * 1024

def queueSampleMs : Nat := 250

def datagramBuffer : Nat := 1024 * 1024

/-- What the clock and the path's statistics say at a call; the budget is the path's rate times
the window, rounded to octets. -/
structure PathSample where
  now : Nat
  budget : Nat

def queueWindowBytes (budget : Nat) (windowMs : UInt32) : Nat :=
  if windowMs = 0 then 0 else max udpQueueFloorBytes (min budget r2StageMaxBytes)

/-- Whether a payload fits the budget with everything that already waits for the wire. -/
def fitsQueueWindow (cap capacity space staged batched len : Nat) : Bool :=
  let occupancy := capacity - space
  saturatingAdd (saturatingAdd (saturatingAdd staged occupancy) batched) len ≤ cap

/-- Whether a standalone payload may join the queue; one above the whole budget is judged by the
backlog alone. -/
def fitsStandaloneWindow (cap capacity space staged len : Nat) : Bool :=
  let occupancy := capacity - space
  let queued := saturatingAdd staged occupancy
  if len > cap then queued ≤ cap else saturatingAdd queued len ≤ cap

lemma saturatingAdd_le_saturatingAdd {a b c d : Nat} (hac : a ≤ c) (hbd : b ≤ d) :
    saturatingAdd a b ≤ saturatingAdd c d := by
  exact min_le_min_right _ (Nat.add_le_add hac hbd)

/-- More free space never turns a payload away. -/
lemma fitsQueueWindow_mono {cap capacity space space' staged batched len : Nat}
    (hle : space ≤ space') (h : fitsQueueWindow cap capacity space staged batched len = true) :
    fitsQueueWindow cap capacity space' staged batched len = true := by
  refine decide_eq_true (le_trans ?_ (of_decide_eq_true h))
  refine saturatingAdd_le_saturatingAdd (saturatingAdd_le_saturatingAdd ?_ le_rfl) le_rfl
  exact saturatingAdd_le_saturatingAdd le_rfl (Nat.sub_le_sub_left hle capacity)

lemma fitsStandaloneWindow_mono {cap capacity space space' staged len : Nat}
    (hle : space ≤ space') (h : fitsStandaloneWindow cap capacity space staged len = true) :
    fitsStandaloneWindow cap capacity space' staged len = true := by
  have hqueued : saturatingAdd staged (capacity - space') ≤
      saturatingAdd staged (capacity - space) :=
    saturatingAdd_le_saturatingAdd le_rfl (Nat.sub_le_sub_left hle capacity)
  unfold fitsStandaloneWindow at h ⊢
  by_cases hlen : len > cap
  · rw [if_pos hlen] at h ⊢
    exact decide_eq_true (hqueued.trans (of_decide_eq_true h))
  rw [if_neg hlen] at h ⊢
  exact decide_eq_true ((saturatingAdd_le_saturatingAdd hqueued le_rfl).trans (of_decide_eq_true h))

/-- What has happened since the last exact reading: what it said, the payload octets admitted, the
octets of the frames handed over, and the octets the driver has freed. -/
structure Reading where
  sampled : Nat
  admitted : Nat
  charged : Nat
  freed : Nat

/-- The frame that a step of the drain hands to the connection. -/
def StageTasks.outgoing (t : StageTasks) : StageEvent → Option Bytes
  | .send .sent =>
    match t.gate with
    | .sending q frames => (q.frames[frames]?).bind fun f => f.body
    | _ => none
  | .directSend limit .sent =>
    match t.gate with
    | .direct call => encodeStandaloneItemFor call.wire call.item limit
    | _ => none
  | _ => none

/-- The same step when the buffer has no room for the frame. -/
def StageEvent.blocked : StageEvent → StageEvent
  | .send _ => .send .blocked
  | .directSend limit _ => .directSend limit .blocked
  | ev => ev

/-- The stager and the queue window of one connection, the free space of its DATAGRAM buffer, and
a record since the last exact reading of that space. -/
structure SendPath where
  tasks : StageTasks
  space : Nat
  /-- What the connection charges for a datagram beside its octets. -/
  overhead : Nat
  queueWindowMs : UInt32
  dgSendBytes : Nat
  dgSpace : SpaceCache
  queueCapBytes : Nat
  queueSampledMs : Nat
  reading : Option Reading

/-- Steps of the connection: admissions, the stager with its drains, frames sent past the stager,
space that the driver frees, and a reading of its own. -/
inductive SendEvent where
  | admitUplink (len batched : Nat) (path : PathSample)
  | admitStandalone (len : Nat) (path : PathSample)
  | stage (ev : StageEvent)
  | standalone (frame : Bytes)
  | freed (n : Nat)
  | resample
  | configureQueueWindow (windowMs : UInt32) (dgSendBytes : Nat)

namespace SendPath

/-- A connection with some free space and no window. -/
def new (maxItems maxBytes : Nat) (wire : Wire) (space overhead : Nat) : SendPath where
  tasks := .new maxItems maxBytes wire
  space := space
  overhead := overhead
  queueWindowMs := 0
  dgSendBytes := datagramBuffer
  dgSpace := .clear
  queueCapBytes := 0
  queueSampledMs := 0
  reading := none

def configureQueueWindow (s : SendPath) (windowMs : UInt32) (dgSendBytes : Nat) : SendPath :=
  { s with
    queueWindowMs := windowMs
    dgSendBytes := dgSendBytes
    queueCapBytes := 0
    dgSpace := .clear
    reading := none }

/-- Sample the budget again, no more often than the spacing allows. -/
def refreshQueueCap (s : SendPath) (path : PathSample) : SendPath :=
  if path.now - s.queueSampledMs < queueSampleMs then s
  else
    { s with
      queueSampledMs := path.now
      queueCapBytes := queueWindowBytes path.budget s.queueWindowMs }

section

variable (s : SendPath) (path : PathSample) (len : Nat) (fits : Nat → Nat → Bool)

/-- The current budget, unless the window is off or no rate has been sampled. -/
def queueWindowCap : Option Nat × SendPath :=
  if s.queueWindowMs = 0 then (none, s)
  else
    let s := s.refreshQueueCap path
    (if s.queueCapBytes ≠ 0 then some s.queueCapBytes else none, s)

def noteAdmitted (s : SendPath) (len : Nat) : SendPath :=
  { s with
    dgSpace := s.dgSpace.noteAdmitted len
    reading := s.reading.map fun r => { r with admitted := r.admitted + len } }

/-- Ask the connection for its free space and publish the answer. -/
def resample (s : SendPath) : SendPath :=
  { s with
    dgSpace := s.dgSpace.resample s.dgSpace.observe s.space
    reading := some ⟨s.space, 0, 0, 0⟩ }

/-- Admission by one of the two window rules: first by the cached space, and by the exact one when
that refuses. -/
def admission : Bool × SendPath :=
  match s.queueWindowCap path with
  | (none, s) => (true, s)
  | (some cap, s) =>
    if fits cap s.dgSpace.space then (true, s.noteAdmitted len)
    else
      let s := s.resample
      if fits cap s.space then (true, s.noteAdmitted len) else (false, s)

/-- The rule of staged payloads. -/
def fitsUplink (batched cap space : Nat) : Bool :=
  fitsQueueWindow cap s.dgSendBytes space s.tasks.stager.queuedBytes batched len

/-- The rule of standalone payloads. -/
def fitsStandalone (cap space : Nat) : Bool :=
  fitsStandaloneWindow cap s.dgSendBytes space s.tasks.stager.queuedBytes len

def admitUplink (batched : Nat) (path : PathSample) : Bool × SendPath :=
  s.admission path len (s.fitsUplink len batched)

def admitStandalone (path : PathSample) : Bool × SendPath :=
  s.admission path len (s.fitsStandalone len)

/-- The answer with a fresh probe. -/
def admissionProbing : Bool :=
  match s.queueWindowCap path with
  | (none, _) => true
  | (some cap, s) => fits cap s.space

/-- What a frame takes of the buffer. -/
def cost (frame : Bytes) : Nat := frame.length + s.overhead

def charge (frame : Bytes) : SendPath :=
  { s with
    space := s.space - s.cost frame
    reading := s.reading.map fun r => { r with charged := r.charged + s.cost frame } }

/-- A step of the stager. A frame that does not fit the buffer is refused as blocked. -/
def stage (ev : StageEvent) : SendPath :=
  match s.tasks.outgoing ev with
  | none => { s with tasks := s.tasks.next ev }
  | some frame =>
    if s.cost frame ≤ s.space then { s.charge frame with tasks := s.tasks.next ev }
    else { s with tasks := s.tasks.next ev.blocked }

/-- A frame or a fragment sent past the stager. -/
def standalone (frame : Bytes) : SendPath :=
  if s.cost frame ≤ s.space then s.charge frame else s

/-- The driver has sent some frames. -/
def free (n : Nat) : SendPath :=
  { s with
    space := s.space + n
    reading := s.reading.map fun r => { r with freed := r.freed + n } }

def next : SendEvent → SendPath
  | .admitUplink len batched path => (s.admitUplink len batched path).2
  | .admitStandalone len path => (s.admitStandalone len path).2
  | .stage ev => s.stage ev
  | .standalone frame => s.standalone frame
  | .freed n => s.free n
  | .resample => s.resample
  | .configureQueueWindow windowMs dgSendBytes => s.configureQueueWindow windowMs dgSendBytes

/-- The cache holds the last exact reading with what was admitted since, and no more octets have
been charged since than were admitted and freed. -/
def Bounded : Prop :=
  match s.reading with
  | none => s.dgSpace.hint = 0
  | some r => s.dgSpace.hint = min r.sampled (2 ^ 32 - 1) ∧
      s.dgSpace.since = min r.admitted (2 ^ 32 - 1) ∧
        s.space + r.charged = r.sampled + r.freed ∧ r.charged ≤ r.admitted + r.freed

/-- If a frame is handed over after an exact reading, what the frames since that reading take is at
most the payload octets admitted since and those that the driver has freed. -/
def Covers (frame : Bytes) : Prop :=
  ∀ r ∈ s.reading, s.cost frame ≤ s.space → r.charged + s.cost frame ≤ r.admitted + r.freed

/-- The condition of a step: the frame that it hands over is covered. -/
def CoversStep : SendEvent → Prop
  | .stage ev => ∀ frame ∈ s.tasks.outgoing ev, s.Covers frame
  | .standalone frame => s.Covers frame
  | _ => True

end

instance (s : SendPath) (frame : Bytes) : Decidable (s.Covers frame) := by
  unfold Covers
  infer_instance

instance (s : SendPath) (ev : SendEvent) : Decidable (s.CoversStep ev) := by
  cases ev <;> unfold CoversStep <;> infer_instance

/-- Admission answers as with a fresh probe. -/
def DecidesAsProbe (s : SendPath) : SendEvent → Prop
  | .admitUplink len batched path =>
    (s.admitUplink len batched path).1 = s.admissionProbing path (s.fitsUplink len batched)
  | .admitStandalone len path =>
    (s.admitStandalone len path).1 = s.admissionProbing path (s.fitsStandalone len)
  | _ => True

variable {s : SendPath}

lemma resample_bounded (s : SendPath) : s.resample.Bounded :=
  ⟨s.dgSpace.hint_resample s.space, s.dgSpace.since_resample s.space, rfl, le_rfl⟩

section

variable (h : s.Bounded) (len : Nat)
include h

lemma Bounded.space_le : s.dgSpace.space ≤ s.space := by
  unfold SpaceCache.space
  unfold Bounded at h
  generalize s.reading = reading' at h ⊢
  cases reading' with
  | none =>
    omega
  | some r =>
    obtain ⟨hhint, hsince, hspace, hcharged⟩ := h
    omega

lemma Bounded.congr {s' : SendPath} (hspace : s'.space = s.space)
    (hcache : s'.dgSpace = s.dgSpace) (hreading : s'.reading = s.reading) : s'.Bounded := by
  unfold Bounded
  rw [hspace, hcache, hreading]
  exact h

lemma Bounded.noteAdmitted : (s.noteAdmitted len).Bounded := by
  unfold Bounded at h ⊢
  unfold SendPath.noteAdmitted
  generalize s.reading = reading' at h ⊢
  cases reading' with
  | none =>
    exact (s.dgSpace.hint_noteAdmitted len).trans h
  | some r =>
    obtain ⟨hhint, hsince, hspace, hcharged⟩ := h
    refine ⟨(s.dgSpace.hint_noteAdmitted len).trans hhint, ?_, hspace, ?_⟩
    · dsimp only
      rw [SpaceCache.since_noteAdmitted, hsince]
      omega
    · dsimp only
      omega

lemma Bounded.charge {frame : Bytes} (hfits : s.cost frame ≤ s.space) (hcovers : s.Covers frame) :
    (s.charge frame).Bounded := by
  unfold Bounded at h ⊢
  unfold SendPath.charge
  generalize hreading : s.reading = reading' at h ⊢
  cases reading' with
  | none =>
    exact h
  | some r =>
    obtain ⟨hhint, hsince, hspace, -⟩ := h
    refine ⟨hhint, hsince, ?_, hcovers r hreading hfits⟩
    dsimp only
    omega

lemma Bounded.free (n : Nat) : (s.free n).Bounded := by
  unfold Bounded at h ⊢
  unfold SendPath.free
  generalize s.reading = reading' at h ⊢
  cases reading' with
  | none =>
    exact h
  | some r =>
    obtain ⟨hhint, hsince, hspace, hcharged⟩ := h
    refine ⟨hhint, hsince, ?_, ?_⟩
    · dsimp only
      omega
    · dsimp only
      omega

/-- Sampling the budget leaves the space and the cache alone. -/
lemma Bounded.queueWindowCap (path : PathSample) : (s.queueWindowCap path).2.Bounded := by
  have hrefresh : (s.refreshQueueCap path).Bounded := by
    unfold refreshQueueCap
    split
    · exact h
    · exact h.congr rfl rfl rfl
  unfold SendPath.queueWindowCap
  split
  · exact h
  · exact hrefresh

/-- The two answers of an admission agree, and the cache stays a lower bound. -/
lemma Bounded.admission (path : PathSample) (len : Nat) {fits : Nat → Nat → Bool}
    (hmono : ∀ cap space space', space ≤ space' → fits cap space = true → fits cap space' = true) :
    (s.admission path len fits).1 = s.admissionProbing path fits ∧
      (s.admission path len fits).2.Bounded := by
  have hcap := h.queueWindowCap path
  unfold SendPath.admission admissionProbing
  generalize s.queueWindowCap path = out at hcap ⊢
  obtain ⟨cap, s'⟩ := out
  cases cap with
  | none => exact ⟨rfl, hcap⟩
  | some cap =>
    dsimp only at hcap ⊢
    by_cases hcached : fits cap s'.dgSpace.space = true
    · rw [if_pos hcached]
      exact ⟨(hmono cap _ _ hcap.space_le hcached).symm, hcap.noteAdmitted len⟩
    rw [if_neg hcached]
    have hspace : s'.resample.space = s'.space := rfl
    rw [hspace]
    cases hexact : fits cap s'.space with
    | true => exact ⟨rfl, s'.resample_bounded.noteAdmitted len⟩
    | false => exact ⟨rfl, s'.resample_bounded⟩

lemma Bounded.admitUplink (batched : Nat) (path : PathSample) :
    (s.admitUplink len batched path).1 = s.admissionProbing path (s.fitsUplink len batched) ∧
      (s.admitUplink len batched path).2.Bounded :=
  h.admission path len fun _ _ _ => fitsQueueWindow_mono

lemma Bounded.admitStandalone (path : PathSample) :
    (s.admitStandalone len path).1 = s.admissionProbing path (s.fitsStandalone len) ∧
      (s.admitStandalone len path).2.Bounded :=
  h.admission path len fun _ _ _ => fitsStandaloneWindow_mono

lemma Bounded.stage {ev : StageEvent} (hcovers : ∀ frame ∈ s.tasks.outgoing ev, s.Covers frame) :
    (s.stage ev).Bounded := by
  unfold SendPath.stage
  cases hframe : s.tasks.outgoing ev with
  | none => exact h.congr rfl rfl rfl
  | some frame =>
    dsimp only
    by_cases hfits : s.cost frame ≤ s.space
    · rw [if_pos hfits]
      exact (h.charge hfits (hcovers frame hframe)).congr rfl rfl rfl
    · rw [if_neg hfits]
      exact h.congr rfl rfl rfl

lemma Bounded.standalone {frame : Bytes} (hcovers : s.Covers frame) :
    (s.standalone frame).Bounded := by
  unfold SendPath.standalone
  by_cases hfits : s.cost frame ≤ s.space
  · rw [if_pos hfits]
    exact h.charge hfits hcovers
  · rw [if_neg hfits]
    exact h

lemma Bounded.next (ev : SendEvent) (hcond : s.CoversStep ev) : (s.next ev).Bounded := by
  cases ev with
  | admitUplink len batched path => exact (h.admitUplink len batched path).2
  | admitStandalone len path => exact (h.admitStandalone len path).2
  | stage ev => exact h.stage hcond
  | standalone frame => exact h.standalone hcond
  | freed n => exact h.free n
  | resample => exact s.resample_bounded
  | configureQueueWindow windowMs dgSendBytes => exact SpaceCache.hint_clear

lemma Bounded.decidesAsProbe (ev : SendEvent) : s.DecidesAsProbe ev := by
  cases ev with
  | admitUplink len batched path => exact (h.admitUplink len batched path).1
  | admitStandalone len path => exact (h.admitStandalone len path).1
  | stage _ | standalone _ | freed _ | resample | configureQueueWindow _ _ => trivial

end

/-- As long as the frames handed over since an exact reading are covered, the cached space never
exceeds the free space and every admission answers as with a fresh probe. -/
theorem cache_decides_as_probe (maxItems maxBytes : Nat) (wire : Wire) (space overhead : Nat)
    (es : List SendEvent)
    (hcond : Along next CoversStep (new maxItems maxBytes wire space overhead) es) :
    Along next (fun s ev => s.dgSpace.space ≤ s.space ∧ s.DecidesAsProbe ev)
        (new maxItems maxBytes wire space overhead) es ∧
      (after next (new maxItems maxBytes wire space overhead) es).dgSpace.space ≤
        (after next (new maxItems maxBytes wire space overhead) es).space := by
  have hstart : (new maxItems maxBytes wire space overhead).Bounded := SpaceCache.hint_clear
  constructor
  · exact Along.of_invariant
      (fun s ev h hcovers => ⟨⟨h.space_le, h.decidesAsProbe ev⟩, h.next ev hcovers⟩) hstart hcond
  · exact (after_of_invariant (fun s ev h hcovers => h.next ev hcovers) hstart hcond).space_le

/-- A slow path at one instant: the budget is the floor. -/
def slowPath : PathSample := ⟨1000, 0⟩

/-- A payload of so many octets in a frame of its own on rev3. -/
def steadyFrame (n : Nat) : Bytes :=
  (Wire.rev3.encodeDataSteady 4 (List.replicate n 0) 1350).getD []

/-- An admission, a drain of one frame and a standalone frame, each covered. -/
def coveredRun : List SendEvent :=
  [.configureQueueWindow 10 datagramBuffer, .admitUplink 3 0 slowPath,
    .stage (.push ⟨1, .steady 4, [1, 2, 3]⟩), .stage .takeGate, .stage (.claim 1350 8 64),
    .stage (.encode 1350), .freed 20, .stage (.send .sent), .stage .finish, .stage .release,
    .admitStandalone 1200 slowPath, .standalone (steadyFrame 1200), .admitUplink 900 0 slowPath]

/-- The driver frees what the frames are longer than their payloads. -/
theorem cache_decides_as_probe_covered :
    Along next (fun s ev => s.dgSpace.space ≤ s.space ∧ s.DecidesAsProbe ev)
      (new 4096 r2StageMaxBytes .rev3 (datagramBuffer - 5000) 0) coveredRun :=
  (cache_decides_as_probe 4096 r2StageMaxBytes .rev3 (datagramBuffer - 5000) 0 coveredRun
    (by decide +kernel)).1

/-- Each frame of a steady payload is two octets longer than the payload. After forty of them the
cache admits a payload that a fresh probe refuses, whether the connection charges the octets alone
or 32 more for each datagram. -/
theorem framing_overruns_cache :
    let run := (.configureQueueWindow 10 datagramBuffer ::
      (List.replicate 40 [.admitStandalone 100 slowPath, .standalone (steadyFrame 100)]).flatten)
    let s := after next (new 4096 r2StageMaxBytes .rev3 datagramBuffer 0) run
    let s' := after next (new 4096 r2StageMaxBytes .rev3 datagramBuffer 32) run
    (s.space < s.dgSpace.space ∧ (s.admitStandalone 4150 slowPath).1 = true ∧
        s.admissionProbing slowPath (s.fitsStandalone 4150) = false) ∧
      s'.space < s'.dgSpace.space ∧ (s'.admitStandalone 4150 slowPath).1 = true ∧
        s'.admissionProbing slowPath (s'.fitsStandalone 4150) = false := by
  decide +kernel

end SendPath

end MyQuic2
