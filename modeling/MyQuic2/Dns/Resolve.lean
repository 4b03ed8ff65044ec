import MyQuic2.Dns.Memo

/-!
# Resolving names through the shared caches

The workers share a cache of answers and a cache of refusals, and each has its memo. A call
resolves a name or refreshes its answer; every access to a cache is a step of its own, and a
name has at most one loader at a time.
-/

namespace MyQuic2

/-- Times are in milliseconds. -/
def dnsNegTtl : Nat := 10000

def dnsInconclusiveTtl : Nat := 1000

def dnsStaleMemoTtl : Nat := 5000

def dnsStaleWindow : Nat := 3600000

def recordTtl (ttl : Nat) : Nat := min (max ttl 10000) 300000

/-- A cached answer, which is fresh until its deadline. -/
structure Positive where
  deadline : Nat
  ips : List IpAddr

/-- A cached refusal. The cache itself keeps it for as long as any refusal can last. -/
structure Refusal where
  expires : Nat
  leaves : Nat

/-- What a lookup upstream brings. Only a verdict is an answer about the name. -/
inductive Upstream where
  | answer (ips : List IpAddr) (ttl : Nat)
  | failure (verdict : Bool)

structure DnsQuery where
  name : Bytes
  port : UInt16
  upstream : Upstream

/-- How far the loader of a name has come. -/
inductive Loader where
  | look
  | clear (pos : Positive)
  | raise (pos : Positive)
  | publish (pos : Positive)
  | record (expires epoch ttl : Nat)
  | remember (expires epoch ttl : Nat)
  | fail (ttl : Nat)

structure DnsShared where
  now : Nat := 0
  epoch : Nat := 0
  worker : Nat := 0
  positives : Bytes → Option Positive := fun _ => none
  negatives : Bytes → Option Refusal := fun _ => none
  memos : Nat → DnsMemo := fun _ => .empty
  loading : Bytes → Option Loader := fun _ => none
  /-- What the loads of a name that are over brought, in order. -/
  results : Bytes → List (Except Nat Positive) := fun _ => []

abbrev DnsResult := Except Nat (List SocketAddr)

namespace DnsShared

variable (s : DnsShared) (q : DnsQuery) (expires expected : Nat)

/-- Remember a refusal in the worker's memo, unless the epoch has moved on. -/
def refuse : DnsShared :=
  let memo := (s.memos s.worker).memoPutWithEpoch (memoKey q.name q.port) expires expected s.epoch
  { s with memos := Function.update s.memos s.worker memo }

/-- What a worker's memo knows about a name. -/
def lookupCachedFast (worker : Nat) (host : String) (port : UInt16) : CachedLookup :=
  ((s.memos worker).lookupCachedFastWithTtl s.now s.epoch host port).1

/-- Remember the first address, for the life it has left or shortly if it is stale. -/
def materialize (pos : Positive) : DnsShared :=
  match pos.ips.head? with
  | none => s
  | some ip =>
    let expires :=
      if s.now < pos.deadline then pos.deadline
      else s.now + min dnsStaleMemoTtl (pos.deadline + dnsStaleWindow - s.now)
    let memo := (s.memos s.worker).memoPut (memoKey q.name q.port) (some (.new ip q.port)) expires 0
    { s with memos := Function.update s.memos s.worker memo }

@[simp] def setNegative (n : Bytes) (ref : Option Refusal) : DnsShared :=
  { s with negatives := Function.update s.negatives n ref }

@[simp] def setPositive (n : Bytes) (pos : Option Positive) : DnsShared :=
  { s with positives := Function.update s.positives n pos }

end DnsShared

/-- What follows once a refusal is cleared. -/
inductive Cleared where
  | refreshed
  | withdrawn (pos : Positive) (ttl : Nat)
  | dropped

/-- Where a task stands in its call. -/
inductive DnsPlace where
  | probe (q : DnsQuery)
  | sample (q : DnsQuery)
  | checkRefusal (q : DnsQuery) (epoch : Nat)
  | refuse (q : DnsQuery) (expires epoch : Nat)
  | fly (q : DnsQuery)
  | drive (q : DnsQuery)
  | wait (q : DnsQuery) (flight : Nat)
  | withdraw (q : DnsQuery) (ttl : Nat)
  | judge (q : DnsQuery) (pos : Positive) (ttl : Nat)
  | clear (q : DnsQuery) (k : Cleared)
  | raise (q : DnsQuery) (k : Cleared)
  | materialize (q : DnsQuery) (pos : Positive) (r : DnsResult)
  | lookAgain (q : DnsQuery)
  | check (q : DnsQuery) (since : Nat) (pos : Positive)
  | replace (q : DnsQuery) (pos : Positive)
  | dropPositive (q : DnsQuery)

namespace DnsPlace

def query : DnsPlace → DnsQuery
  | probe q | sample q | checkRefusal q _ | refuse q _ _ | fly q | drive q | wait q _
  | withdraw q _ | judge q _ _ | clear q _ | raise q _ | materialize q _ _ | lookAgain q
  | check q _ _ | replace q _ | dropPositive q => q

def serve (q : DnsQuery) (pos : Positive) : DnsPlace :=
  .materialize q pos (.ok (pos.ips.map fun ip => .new ip q.port))

/-- How a call goes on with the result of a load. -/
def landed (q : DnsQuery) : Except Nat Positive → DnsPlace
  | .ok pos => serve q pos
  | .error ttl => .withdraw q ttl

/-- How a call goes on behind a refusal that is cleared. -/
def cleared (q : DnsQuery) : Cleared → Then DnsPlace DnsResult
  | .refreshed => .done (.ok [])
  | .withdrawn pos ttl => .goto (.materialize q pos (.error ttl))
  | .dropped => .goto (.probe q)

end DnsPlace

namespace DnsShared

variable (s : DnsShared) (q : DnsQuery) (l : Loader)

/-- The loader of a query has come so far. -/
@[simp] def goOn : DnsShared × Then DnsPlace DnsResult :=
  ({ s with loading := Function.update s.loading q.name (some l) }, .goto (.drive q))

/-- The loader ends, and those that wait for it read what it brought. -/
@[simp] def release (r : Except Nat Positive) : DnsShared × Then DnsPlace DnsResult :=
  ({ s with
    loading := Function.update s.loading q.name none
    results := Function.update s.results q.name (s.results q.name ++ [r]) }, .goto (.landed q r))

/-- A step of the loader that a query started. -/
def load : DnsShared × Then DnsPlace DnsResult :=
  match s.loading q.name with
  | none => (s, .goto (.drive q))
  | some .look =>
    match q.upstream with
    | .answer ips ttl => s.goOn q (.clear ⟨s.now + recordTtl ttl, ips⟩)
    | .failure verdict =>
      let ttl := if verdict then dnsNegTtl else dnsInconclusiveTtl
      s.goOn q (.record (s.now + ttl) s.epoch ttl)
  | some (.clear pos) =>
    match s.negatives q.name with
    | some _ => (s.setNegative q.name none).goOn q (.raise pos)
    | none => s.goOn q (.publish pos)
  | some (.raise pos) => { s with epoch := s.epoch + 1 }.goOn q (.publish pos)
  | some (.publish pos) => (s.setPositive q.name (some pos)).release q (.ok pos)
  | some (.record expires epoch ttl) =>
    (s.setNegative q.name (some ⟨expires, s.now + dnsNegTtl⟩)).goOn q (.remember expires epoch ttl)
  | some (.remember expires epoch ttl) => (s.refuse q expires epoch).goOn q (.fail ttl)
  | some (.fail ttl) => s.release q (.error ttl)

end DnsShared

/-- Ways to look a name up: through the caches, behind a stale answer, or past the caches. -/
inductive DnsOp where
  | resolveAllCached (q : DnsQuery)
  | refreshPositive (q : DnsQuery)
  | resolveServerAddrsFresh (q : DnsQuery)

namespace DnsOp

def entry : DnsOp → DnsPlace
  | resolveAllCached q => .probe q
  | refreshPositive q => .lookAgain q
  | resolveServerAddrsFresh q => .dropPositive q

open DnsPlace in
def step (s : DnsShared) : DnsPlace → DnsShared × Then DnsPlace DnsResult
  | probe q =>
    match s.positives q.name with
    | some pos => (s, .goto (serve q pos))
    | none => (s, .goto (sample q))
  | sample q => (s, .goto (checkRefusal q s.epoch))
  | checkRefusal q epoch =>
    match s.negatives q.name with
    | some ref => if s.now < ref.expires then (s, .goto (refuse q ref.expires epoch))
      else (s, .goto (fly q))
    | none => (s, .goto (fly q))
  | refuse q expires epoch => (s.refuse q expires epoch, .done (.error (expires - s.now)))
  | fly q =>
    match s.positives q.name with
    | some pos => (s, .goto (serve q pos))
    | none =>
      if (s.loading q.name).isSome then (s, .goto (wait q (s.results q.name).length))
      else s.goOn q .look
  | drive q => s.load q
  | wait q flight =>
    match (s.results q.name)[flight]? with
    | some r => (s, .goto (landed q r))
    | none => (s, .goto (wait q flight))
  | withdraw q ttl =>
    match s.positives q.name with
    | some pos => (s, .goto (judge q pos ttl))
    | none => (s, .done (.error ttl))
  | judge q pos ttl =>
    if s.now < pos.deadline then (s, .goto (clear q (.withdrawn pos ttl)))
    else (s, .done (.error ttl))
  | clear q k =>
    match s.negatives q.name with
    | some _ => (s.setNegative q.name none, .goto (raise q k))
    | none => (s, cleared q k)
  | raise q k => ({ s with epoch := s.epoch + 1 }, cleared q k)
  | materialize q pos r => (s.materialize q pos, .done r)
  | lookAgain q =>
    match q.upstream with
    | .answer ips ttl => (s, .goto (check q s.now ⟨s.now + recordTtl ttl, ips⟩))
    | .failure _ => (s, .done (.ok []))
  | check q since pos =>
    if (s.positives q.name).any (since < ·.deadline) then (s, .done (.ok []))
    else (s, .goto (replace q pos))
  | replace q pos => (s.setPositive q.name (some pos), .goto (clear q .refreshed))
  | dropPositive q => (s.setPositive q.name none, .goto (clear q .dropped))

def program : Program DnsShared DnsOp DnsPlace DnsResult := ⟨entry, step⟩

end DnsOp

abbrev DnsPool := Pool DnsShared DnsPlace DnsResult

/-- Besides the steps of the tasks, time passes, workers take turns, and caches drop entries. -/
inductive DnsEvent where
  | task (e : TaskEvent DnsOp)
  | tick (ms : Nat)
  | run (worker : Nat)
  | evictPositive (n : Bytes)
  | evictNegative (n : Bytes)

open DnsOp

def dnsNext (p : DnsPool) : DnsEvent → DnsPool
  | .task e => program.next p e
  | .tick ms => { p with shared := { p.shared with now := p.shared.now + ms } }
  | .run worker => { p with shared := { p.shared with worker := worker } }
  | .evictPositive n => { p with shared := p.shared.setPositive n none }
  | .evictNegative n => { p with shared := p.shared.setNegative n none }

/-- A fresh answer and a refusal of one name. -/
def Conflict (s : DnsShared) (n : Bytes) (d : Nat) : Prop :=
  (s.positives n).map Positive.deadline = some d ∧ s.now < d ∧ s.negatives n ≠ none

/-- A task that will remove the refusal of a name, if the answer that it finds is the one with
the deadline. -/
def Cleans (n : Bytes) (d : Nat) : DnsPlace → Prop
  | .withdraw q _ | .clear q _ => q.name = n
  | .judge q pos _ => q.name = n ∧ pos.deadline = d
  | _ => False

/-- The loader has recorded a refusal. -/
def Loader.failing : Loader → Bool
  | remember .. | fail _ => true
  | _ => false

/-- The loader has cleared the refusal for its answer. -/
def Loader.answering : Loader → Bool
  | raise _ | publish _ => true
  | _ => false

open Loader

/-- A loader runs for a task, with no refusal left once it has an answer to publish; and where
a fresh answer meets a refusal, someone will remove that. -/
structure Tidy (p : DnsPool) : Prop where
  driven : ∀ n, p.shared.loading n ≠ none → ∃ q : DnsQuery, q.name = n ∧ p.At (.drive q)
  clear : ∀ n, (p.shared.loading n).any answering → p.shared.negatives n = none
  pending : ∀ n d, Conflict p.shared n d → (p.shared.loading n).any failing ∨
    ∃ place, p.At place ∧ Cleans n d place

variable {s s' : DnsShared} {place : DnsPlace} {n : Bytes} {d : Nat} {t : Then DnsPlace DnsResult}

section

variable (h : step s place = (s', t))
include h

open DnsShared

/-- A step leaves the clock, and all that the caches have of other names. -/
lemma frame_step :
    s'.now = s.now ∧ (n ≠ place.query.name → s'.positives n = s.positives n ∧
      s'.negatives n = s.negatives n ∧ s'.loading n = s.loading n) := by
  cases place <;> simp only [step, load, materialize] at h <;>
    (repeat' split at h) <;> cases h <;> simp_all +contextual [refuse, DnsPlace.query]

/-- A task drives its loader to the end. -/
lemma driven_step (hl : s'.loading n ≠ none) :
    (∃ q : DnsQuery, q.name = n ∧ t = .goto (.drive q)) ∨
      s.loading n ≠ none ∧ ∀ q : DnsQuery, q.name = n → place ≠ .drive q := by
  by_cases hn : n = place.query.name
  · cases place <;> simp only [step, load, materialize] at h <;>
      (repeat' split at h) <;> cases h <;> simp_all [refuse, DnsPlace.query]
  have := (frame_step (n := n) h).2 hn
  simp_all
  grind [DnsPlace.query]

lemma clear_step (hclear : (s.loading n).any answering → s.negatives n = none)
    (ha : (s'.loading n).any answering) : s'.negatives n = none := by
  by_cases hn : n = place.query.name
  · cases place <;> simp only [step, load, materialize] at h <;>
      (repeat' split at h) <;> cases h <;>
      simp_all [refuse, DnsPlace.query, answering]
  · have := (frame_step (n := n) h).2 hn
    simp_all

lemma conflict_step (hconf : Conflict s' n d)
    (hclear : (s.loading n).any answering → s.negatives n = none)
    (hf : (s'.loading n).any failing = false) :
    (∃ dest, t = .goto dest ∧ Cleans n d dest) ∨
      Conflict s n d ∧ (s.loading n).any failing = false := by
  by_cases hn : n = place.query.name
  · cases place <;> simp only [step, load, materialize] at h <;>
      (repeat' split at h) <;> cases h <;>
      simp_all [refuse, DnsPlace.query, Conflict, Cleans, failing,
        answering, DnsPlace.landed]
  · have := frame_step (n := n) h
    simp_all [Conflict]

end

/-- A task on its way to the refusal removes it or goes on. -/
lemma Cleans.step (hc : Cleans n d place) (hconf : Conflict s n d)
    (h : step s place = (s', t)) :
    s'.negatives n = none ∨ ∃ dest, t = .goto dest ∧ Cleans n d dest := by
  obtain ⟨hpos, hfresh, -⟩ := hconf
  cases place with
  | withdraw q ttl | judge q pos ttl | clear q k =>
    simp only [step] at h
    split at h <;> cases h <;> simp_all [Cleans]
  | _ => exact hc.elim

lemma Tidy.moved {p : DnsPool} (hp : Tidy p) {i : Nat} (hi : p.tasks i = some place)
    (h : step p.shared place = (s', t)) {dest : Option DnsPlace}
    (hdest : ∀ q, dest = some q ↔ t = .goto q) (r : List (Nat × DnsResult)) :
    Tidy { p.move i dest with shared := s', returned := r } := by
  have harrives : ∀ q, t = .goto q → Pool.At { p.move i dest with shared := s', returned := r } q :=
    fun q hq => ⟨i, by simp [Pool.move, (hdest q).mpr hq]⟩
  refine ⟨fun n hl => ?_, fun n => clear_step h (hp.clear n), fun n d hconf => ?_⟩
  · rcases driven_step h hl with ⟨q, hq, ht⟩ | ⟨hold, hother⟩
    · exact ⟨q, hq, harrives _ ht⟩
    · obtain ⟨q, hq, hat⟩ := hp.driven n hold
      exact ⟨q, hq, hat.move hi (hother q hq) dest⟩
  by_cases hf : (s'.loading n).any failing = true
  · exact .inl hf
  right
  rcases conflict_step h hconf (hp.clear n) (by simpa using hf) with ⟨q, ht, hq⟩ | ⟨hold, hf'⟩
  · exact ⟨q, harrives q ht, hq⟩
  obtain ⟨other, hat, hc⟩ := (hp.pending n d hold).resolve_left (by simp [hf'])
  by_cases hplace : place = other
  · subst hplace
    obtain ⟨q, ht, hq⟩ := (hc.step hold h).resolve_left hconf.2.2
    exact ⟨q, harrives q ht, hq⟩
  · exact ⟨other, hat.move hi hplace dest, hc⟩

lemma Tidy.next {p : DnsPool} (hp : Tidy p) (e : DnsEvent) : Tidy (dnsNext p e) := by
  cases e with
  | task e =>
    have hmoves := program.moves_next p e
    change Tidy (program.next p e)
    generalize program.next p e = p' at hmoves ⊢
    cases hmoves with
    | idle => exact hp
    | begun hi =>
      refine ⟨fun n hl => ?_, hp.clear, fun n d hconf => ?_⟩
      · obtain ⟨q, hq, hat⟩ := hp.driven n hl
        exact ⟨q, hq, hat.call hi _⟩
      · refine (hp.pending n d hconf).imp_right ?_
        rintro ⟨place, hat, hc⟩
        exact ⟨place, hat.call hi _, hc⟩
    | went hi h | ended hi h => exact hp.moved hi h (by simp) _
  | tick ms =>
    refine ⟨hp.driven, hp.clear, fun n d hconf => hp.pending n d ⟨hconf.1, ?_, hconf.2.2⟩⟩
    exact Nat.lt_of_le_of_lt (Nat.le_add_right ..) hconf.2.1
  | run worker => exact ⟨hp.driven, hp.clear, hp.pending⟩
  | evictPositive n =>
    refine ⟨hp.driven, hp.clear, fun m d hconf => hp.pending m d ?_⟩
    by_cases hm : m = n <;> simp_all [dnsNext, Conflict]
  | evictNegative n =>
    refine ⟨hp.driven, fun m ha => ?_, fun m d hconf => hp.pending m d ?_⟩
    · have := hp.clear m ha
      by_cases hm : m = n <;> simp_all [dnsNext]
    · by_cases hm : m = n <;> simp_all [dnsNext, Conflict]

/-- Whatever the resolutions, refreshes and evictions: once no call is in progress, no name has
both a fresh answer and a refusal. -/
theorem verdicts_disjoint_at_rest (es : List DnsEvent)
    (hrest : ∀ i, (after dnsNext (.new {}) es).tasks i = none) (n : Bytes) (pos : Positive)
    (hpos : (after dnsNext (.new {}) es).shared.positives n = some pos)
    (hfresh : (after dnsNext (.new {}) es).shared.now < pos.deadline) :
    (after dnsNext (.new {}) es).shared.negatives n = none := by
  have hnew : Tidy (.new {}) := ⟨by simp [Pool.new], by simp [Pool.new],
    by simp [Pool.new, Conflict]⟩
  have hp : Tidy (after dnsNext (.new {}) es) := after_of_kept (fun _ e h => h.next e) hnew es
  generalize after dnsNext (.new {}) es = p at *
  have hidle : ∀ place, ¬ p.At place := fun place ⟨i, hi⟩ => by simp [hrest i] at hi
  by_contra hneg
  rcases hp.pending n pos.deadline ⟨by simp [hpos], hfresh, hneg⟩ with hf | ⟨place, hat, -⟩
  · obtain ⟨l, hl, -⟩ := Option.any_eq_true .. |>.mp hf
    obtain ⟨q, -, hat⟩ := hp.driven n (by simp [hl])
    exact hidle _ hat
  · exact hidle place hat

/-- A task's call and the first steps that it takes. -/
def callSteps (i : Nat) (op : DnsOp) (steps : Nat) : List DnsEvent :=
  .task (.call i op) :: List.replicate steps (.task (.step i))

/-- A lookup that fails, and an answer for the same name. -/
def failedLookup : Nat → List DnsEvent :=
  callSteps 0 (.resolveAllCached ⟨dnsName "a", 80, .failure true⟩)

def answered : DnsQuery := ⟨dnsName "a", 80, .answer [.v4 ⟨1⟩] 0⟩

/-- A refresh crosses a lookup that fails. -/
theorem verdicts_disjoint_at_rest_crossing :
    let es := failedLookup 5 ++ callSteps 1 (.refreshPositive answered) 3 ++ [.task (.step 0)]
    let rest := List.replicate 2 (.task (.step 1)) ++ List.replicate 6 (.task (.step 0))
    ((after dnsNext (.new {}) es).shared.positives (dnsName "a")).isSome ∧
      ((after dnsNext (.new {}) es).shared.negatives (dnsName "a")).isSome ∧
      (after dnsNext (.new {}) (es ++ rest)).shared.negatives (dnsName "a") = none := by
  refine ⟨rfl, rfl, verdicts_disjoint_at_rest _ (fun i => ?_) _ ⟨10000, [.v4 ⟨1⟩]⟩ rfl (by decide)⟩
  rcases i with _ | _ | i <;> rfl

end MyQuic2
