import BlindPass.Fleet.Messages

/-!
# Delivery of the consumption history

The rows of a report are hashed into a chain, whose end the manifest of every page names. The
controller feeds the pages to an accumulator. It is complete when it has got all pages of one
manifest, in their order and each once, with the rows and the hash that the manifest announces; a
page it refuses poisons it for good.

What a refused page leaves of the digest is never read, and is left out here.
-/

namespace BlindPass.Recovery

open Fleet (DocumentError ensure ensure_eq_ok canonicalized canonicalized_eq_ok base64UrlEncode
  domain)
open Utf8 (encode)
open Transaction (bind_eq_ok)

variable (sha256 : List UInt8 → List UInt8)

/-! ### The chain -/

/-- The first link: the manifest, but for the end of the chain. -/
def chainStart (m : ReportManifest) : Except DocumentError (List UInt8) := do
  let canonical ← canonicalized (.object (m.fields.filter fun f => f.1 != "records_digest"))
  return sha256 (domain "blindpass:recovery-history:v2" ++ canonical)

/-- One more link. -/
def chainLink (state : List UInt8) (r : IntentRecord) : Except DocumentError (List UInt8) := do
  let value ← r.toValue
  let canonical ← canonicalized value
  return sha256 (state ++ canonical)

/-- The text of a hash. -/
def hashText (state : List UInt8) : String := String.ofList (base64UrlEncode state)

structure PageDigest where
  manifest : ReportManifest
  state : List UInt8
  count : ℕ
  unmapped : ℕ
  previous : Option String

namespace PageDigest

def new (m : ReportManifest) : Except DocumentError PageDigest := do
  m.validate
  let state ← chainStart sha256 m
  return ⟨m, state, 0, 0, none⟩

def push (d : PageDigest) (r : IntentRecord) : Except DocumentError PageDigest := do
  r.validate
  ensure (d.count < d.manifest.totalRecords &&
    r.issuerEpoch.all (· ≤ d.manifest.observedIssuerEpoch) && d.previous.all (· < r.grantId)) invalid
  let state ← chainLink sha256 d.state r
  return { d with
    state
    count := d.count + 1
    unmapped := d.unmapped + if r.operationId.isNone then 1 else 0
    previous := some r.grantId }

def finish (d : PageDigest) : Except DocumentError String := do
  ensure (d.count == d.manifest.totalRecords &&
    d.unmapped == d.manifest.coverage.unmappedRecords) invalid
  return hashText d.state

end PageDigest

/-! ### The accumulator -/

structure PageAccumulator where
  digest : Option PageDigest
  nextPage : ℕ
  finished : Bool
  poisoned : Bool

namespace PageAccumulator

def new : PageAccumulator := ⟨none, 0, false, false⟩

def complete (a : PageAccumulator) : Bool := a.finished && !a.poisoned

/-- The digest that a page goes to. -/
def digestFor (a : PageAccumulator) (m : ReportManifest) : Except DocumentError PageDigest :=
  a.digest.elim (PageDigest.new sha256 m) .ok

def pushInner (a : PageAccumulator) (page : ReportPage) : Except DocumentError PageAccumulator := do
  ensure (!a.poisoned && !a.finished && page.pageIndex == a.nextPage) invalid
  let digest ← a.digestFor sha256 page.manifest
  ensure (digest.manifest = page.manifest) invalid
  let digest ← page.records.foldlM (PageDigest.push sha256) digest
  if a.nextPage + 1 = page.manifest.pageCount then
    let computed ← digest.finish
    ensure (computed == page.manifest.recordsDigest) invalid
    return ⟨none, a.nextPage + 1, true, a.poisoned⟩
  else return ⟨some digest, a.nextPage + 1, a.finished, a.poisoned⟩

def push (a : PageAccumulator) (page : ReportPage) : PageAccumulator × Except DocumentError Bool :=
  match a.pushInner sha256 page with
  | .ok a' => (a', .ok a'.finished)
  | .error e => ({ a with poisoned := true }, .error e)

/-- The accumulator after several pages. -/
def pushAll (a : PageAccumulator) (pages : List ReportPage) : PageAccumulator :=
  pages.foldl (fun a page => (a.push sha256 page).1) a

end PageAccumulator

/-! ### What a digest has seen -/

/-- A row that a digest takes. -/
structure PageDigest.Takes (d : PageDigest) (r : IntentRecord) (e : PageDigest) : Prop where
  ascends : d.previous.all (· < r.grantId) = true
  link : chainLink sha256 d.state r = .ok e.state
  manifest : e.manifest = d.manifest
  count : e.count = d.count + 1
  unmapped : e.unmapped = d.unmapped + if r.operationId.isNone then 1 else 0
  previous : e.previous = some r.grantId

/-- What a digest knows of the rows it has taken. -/
structure PageDigest.Covers (m : ReportManifest) (records : List IntentRecord) (d : PageDigest) :
    Prop where
  manifest : d.manifest = m
  count : d.count = records.length
  unmapped : d.unmapped = records.countP (·.operationId.isNone)
  ascending : records.Pairwise fun r r' => r.grantId < r'.grantId
  last : ∀ r ∈ records, ∃ id, d.previous = some id ∧ (r.grantId = id ∨ r.grantId < id)
  chain : (chainStart sha256 m >>= records.foldlM (chainLink sha256)) = .ok d.state

section Digest

variable {sha256} {d e : PageDigest} {m : ReportManifest} {r : IntentRecord}
  {records : List IntentRecord}

namespace PageDigest

theorem takes_of_push (h : d.push sha256 r = .ok e) : d.Takes sha256 r e := by
  obtain ⟨_, -, h⟩ := bind_eq_ok.mp h
  obtain ⟨_, hchecks, h⟩ := bind_eq_ok.mp h
  obtain ⟨state, hlink, h⟩ := bind_eq_ok.mp h
  rw [ensure_eq_ok, Bool.and_eq_true] at hchecks
  cases h
  exact ⟨hchecks.2, hlink, rfl, rfl, rfl, rfl⟩

theorem covers_new (h : PageDigest.new sha256 m = .ok d) : d.Covers sha256 m [] := by
  obtain ⟨_, -, h⟩ := bind_eq_ok.mp h
  obtain ⟨state, hstate, h⟩ := bind_eq_ok.mp h
  cases h
  exact ⟨rfl, rfl, rfl, .nil, nofun, bind_eq_ok.mpr ⟨state, hstate, rfl⟩⟩

/-- A row behind the others is taken. -/
theorem Covers.push (h : d.Covers sha256 m records) (hpush : d.push sha256 r = .ok e) :
    e.Covers sha256 m (records ++ [r]) := by
  have htakes := takes_of_push hpush
  have hbefore : ∀ r' ∈ records, r'.grantId < r.grantId := by
    intro r' hr'
    obtain ⟨id, hid, hle⟩ := h.last r' hr'
    have hlt := htakes.ascends
    rw [hid, Option.all_some, decide_eq_true_eq] at hlt
    rcases hle with rfl | hle
    · exact hlt
    · exact String.lt_trans hle hlt
  refine ⟨htakes.manifest.trans h.manifest, ?_, ?_, ?_, ?_, ?_⟩
  · rw [htakes.count, h.count, List.length_append, List.length_singleton]
  · rw [htakes.unmapped, h.unmapped, List.countP_append, List.countP_singleton]
  · rw [List.pairwise_append]
    refine ⟨h.ascending, List.pairwise_singleton _ _, fun r₁ h₁ r₂ h₂ => ?_⟩
    rw [List.mem_singleton.mp h₂]
    exact hbefore r₁ h₁
  · intro r' hr'
    refine ⟨r.grantId, htakes.previous, ?_⟩
    rcases List.mem_append.mp hr' with hr' | hr'
    · exact .inr (hbefore r' hr')
    · exact .inl (congrArg IntentRecord.grantId (List.mem_singleton.mp hr'))
  · obtain ⟨state, hstate, hchain⟩ := bind_eq_ok.mp h.chain
    refine bind_eq_ok.mpr ⟨state, hstate, ?_⟩
    rw [List.foldlM_append, bind_eq_ok]
    exact ⟨d.state, hchain, by simp [htakes.link]⟩

theorem Covers.pushAll {more : List IntentRecord} (h : d.Covers sha256 m records)
    (hpush : more.foldlM (PageDigest.push sha256) d = .ok e) :
    e.Covers sha256 m (records ++ more) := by
  induction more generalizing d records with
  | nil =>
    cases hpush
    rwa [List.append_nil]
  | cons r rest ih =>
    rw [List.foldlM_cons] at hpush
    obtain ⟨d', hd', hrest⟩ := bind_eq_ok.mp hpush
    have hall := ih (h.push hd') hrest
    rwa [List.append_assoc] at hall

/-- The hash does not depend on the end of the chain that the manifest names. -/
theorem push_withDigest (text : String) (h : d.push sha256 r = .ok e) :
    { d with manifest := { d.manifest with recordsDigest := text } }.push sha256 r =
      .ok { e with manifest := { d.manifest with recordsDigest := text } } := by
  obtain ⟨u, hvalid, h⟩ := bind_eq_ok.mp h
  obtain ⟨u', hchecks, h⟩ := bind_eq_ok.mp h
  obtain ⟨state, hlink, h⟩ := bind_eq_ok.mp h
  cases h
  exact bind_eq_ok.mpr ⟨u, hvalid, bind_eq_ok.mpr ⟨u', hchecks, bind_eq_ok.mpr ⟨state, hlink, rfl⟩⟩⟩

theorem pushAll_withDigest (text : String) (h : records.foldlM (PageDigest.push sha256) d = .ok e) :
    records.foldlM (PageDigest.push sha256)
        { d with manifest := { d.manifest with recordsDigest := text } } =
      .ok { e with manifest := { d.manifest with recordsDigest := text } } := by
  induction records generalizing d with
  | nil =>
    cases h
    rfl
  | cons r rest ih =>
    rw [List.foldlM_cons] at h ⊢
    obtain ⟨d', hd', hrest⟩ := bind_eq_ok.mp h
    refine bind_eq_ok.mpr ⟨_, push_withDigest text hd', ?_⟩
    rw [← (takes_of_push hd').manifest]
    exact ih hrest

theorem new_withDigest {text : String} (h : PageDigest.new sha256 m = .ok d)
    (hvalid : ({ m with recordsDigest := text } : ReportManifest).validate = .ok ()) :
    PageDigest.new sha256 { m with recordsDigest := text } =
      .ok { d with manifest := { m with recordsDigest := text } } := by
  obtain ⟨_, -, h⟩ := bind_eq_ok.mp h
  obtain ⟨state, hstate, h⟩ := bind_eq_ok.mp h
  cases h
  have hstart : chainStart sha256 { m with recordsDigest := text } = chainStart sha256 m := rfl
  exact bind_eq_ok.mpr ⟨(), hvalid, bind_eq_ok.mpr ⟨state, hstart.trans hstate, rfl⟩⟩

end PageDigest

end Digest

/-! ### What an accumulator has accepted -/

/-- The hash of a manifest without its hash and of some rows: the canonical bytes of the manifest,
behind the domain, and then those of each row behind the hash before it. -/
def Chained (m : ReportManifest) (records : List IntentRecord) (state : List UInt8) : Prop :=
  ∃ head rows, Canon.canonicalizeValue
      (.object (m.fields.filter fun f => f.1 != "records_digest")) = .ok head ∧
    List.Forall₂ (fun r row => Canon.canonicalizeValue (.object r.fields) = .ok row) records rows ∧
    state = rows.foldl (fun state row => sha256 (state ++ row))
      (sha256 (encode "blindpass:recovery-history:v2".toList ++ 0 :: head))

/-- The pages are those of one manifest, each once and in order, with the rows and the hash that
it announces. -/
structure Delivers (m : ReportManifest) (pages : List ReportPage) : Prop where
  manifest : ∀ page ∈ pages, page.manifest = m
  indices : pages.map (·.pageIndex) = List.range m.pageCount
  total : (pages.flatMap (·.records)).length = m.totalRecords
  ascending : (pages.flatMap (·.records)).Pairwise fun r r' => r.grantId < r'.grantId
  unmapped : (pages.flatMap (·.records)).countP (·.operationId.isNone) = m.coverage.unmappedRecords
  chain : ∃ state, Chained sha256 m (pages.flatMap (·.records)) state ∧
    m.recordsDigest = hashText state

section Chain

variable {sha256} {m : ReportManifest} {records : List IntentRecord} {state state' : List UInt8}

/-- The links hash the canonical rows one after the other. -/
theorem rows_of_chainLinks (h : records.foldlM (chainLink sha256) state = .ok state') :
    ∃ rows, List.Forall₂ (fun r row => Canon.canonicalizeValue (.object r.fields) = .ok row)
      records rows ∧ state' = rows.foldl (fun state row => sha256 (state ++ row)) state := by
  induction records generalizing state with
  | nil => exact ⟨[], .nil, (Except.ok.inj h).symm⟩
  | cons r rest ih =>
    rw [List.foldlM_cons] at h
    obtain ⟨linked, hlink, h⟩ := bind_eq_ok.mp h
    obtain ⟨value, hvalue, hlink⟩ := bind_eq_ok.mp hlink
    obtain ⟨row, hrow, hsame⟩ := bind_eq_ok.mp hlink
    obtain ⟨-, -, hfields⟩ := bind_eq_ok.mp hvalue
    cases hfields
    cases hsame
    obtain ⟨rows, hrows, hstate⟩ := ih h
    exact ⟨row :: rows, .cons (canonicalized_eq_ok.mp hrow) hrows, hstate⟩

theorem chained_of_eq_ok
    (h : (chainStart sha256 m >>= records.foldlM (chainLink sha256)) = .ok state) :
    Chained sha256 m records state := by
  obtain ⟨start, hstart, h⟩ := bind_eq_ok.mp h
  obtain ⟨head, hhead, hstart⟩ := bind_eq_ok.mp hstart
  cases hstart
  obtain ⟨rows, hrows, hstate⟩ := rows_of_chainLinks h
  refine ⟨head, rows, canonicalized_eq_ok.mp hhead, hrows, ?_⟩
  rw [hstate, domain, List.append_assoc]
  rfl

end Chain

/-- What an accumulator that is not poisoned has got. -/
structure PageAccumulator.Accepts (pages : List ReportPage) (a : PageAccumulator) : Prop where
  unpoisoned : a.poisoned = false
  next : a.nextPage = pages.length
  indices : pages.map (·.pageIndex) = List.range pages.length
  digest : (pages = [] ∧ a.digest = none ∧ a.finished = false) ∨ ∃ m d,
    (∀ page ∈ pages, page.manifest = m) ∧ d.Covers sha256 m (pages.flatMap (·.records)) ∧
      (a.finished = false ∧ a.digest = some d ∨
        a.finished = true ∧ pages.length = m.pageCount ∧ d.finish = .ok m.recordsDigest)

namespace PageAccumulator

variable {sha256} {a a' : PageAccumulator} {pages : List ReportPage} {page : ReportPage}
  {d e : PageDigest} {k : ℕ}

/-- The digest that the next page goes to covers the pages before it. -/
theorem Accepts.digestFor (h : a.Accepts sha256 pages) (hopen : a.finished = false)
    (hd : a.digestFor sha256 page.manifest = .ok d) (hm : d.manifest = page.manifest) :
    (∀ p ∈ pages, p.manifest = page.manifest) ∧
      d.Covers sha256 page.manifest (pages.flatMap (·.records)) := by
  rcases h.digest with ⟨rfl, hnone, -⟩ | ⟨m, d', hpages, hcovers, hstate⟩
  · rw [PageAccumulator.digestFor, hnone] at hd
    exact ⟨nofun, PageDigest.covers_new hd⟩
  rcases hstate with ⟨-, hdigest⟩ | ⟨hfinished, -⟩
  · rw [PageAccumulator.digestFor, hdigest] at hd
    cases hd
    rw [← hm, hcovers.manifest]
    exact ⟨hpages, hcovers⟩
  · rw [hopen] at hfinished
    cases hfinished

theorem Accepts.pushInner (h : a.Accepts sha256 pages) (hpush : a.pushInner sha256 page = .ok a') :
    a'.Accepts sha256 (pages ++ [page]) := by
  obtain ⟨_, hchecks, hpush⟩ := bind_eq_ok.mp hpush
  obtain ⟨d, hd, hpush⟩ := bind_eq_ok.mp hpush
  obtain ⟨_, hm, hpush⟩ := bind_eq_ok.mp hpush
  obtain ⟨e, he, hpush⟩ := bind_eq_ok.mp hpush
  simp only [ensure_eq_ok, Bool.and_eq_true, Bool.not_eq_true', beq_iff_eq,
    decide_eq_true_eq] at hchecks hm
  obtain ⟨hpages, hcovers⟩ := h.digestFor hchecks.1.2 hd hm
  have hall : ∀ p ∈ pages ++ [page], p.manifest = page.manifest := by
    intro p hp
    rcases List.mem_append.mp hp with hp | hp
    · exact hpages p hp
    · rw [List.mem_singleton.mp hp]
  have hindices : (pages ++ [page]).map (·.pageIndex) = List.range (pages ++ [page]).length := by
    rw [List.map_append, h.indices, List.length_append, List.length_singleton, List.range_succ]
    simp [hchecks.2, h.next]
  have hcovers' : e.Covers sha256 page.manifest ((pages ++ [page]).flatMap (·.records)) := by
    rw [List.flatMap_append, List.flatMap_singleton]
    exact hcovers.pushAll he
  have hlength : a.nextPage + 1 = (pages ++ [page]).length := by
    rw [h.next, List.length_append, List.length_singleton]
  split at hpush
  · next hlast =>
    obtain ⟨computed, hfinish, hpush⟩ := bind_eq_ok.mp hpush
    obtain ⟨_, hsame, hpush⟩ := bind_eq_ok.mp hpush
    rw [ensure_eq_ok, beq_iff_eq] at hsame
    cases hpush
    refine ⟨h.unpoisoned, hlength, hindices, .inr ⟨_, e, hall, hcovers', .inr ⟨rfl, ?_, ?_⟩⟩⟩
    · rw [← hlength, hlast]
    · rw [hfinish, hsame]
  · cases hpush
    exact ⟨h.unpoisoned, hlength, hindices, .inr ⟨_, e, hall, hcovers', .inl ⟨hchecks.1.2, rfl⟩⟩⟩

theorem pushAll_append : a.pushAll sha256 (pages ++ [page]) =
    ((a.pushAll sha256 pages).push sha256 page).1 := by
  rw [pushAll, List.foldl_append]
  rfl

theorem push_of_ok (h : a.pushInner sha256 page = .ok a') :
    a.push sha256 page = (a', .ok a'.finished) := by
  rw [push, h]

theorem poisoned_push (h : a.poisoned = true) : (a.push sha256 page).1.poisoned = true := by
  simp [push, pushInner, h, ensure, bind, Except.bind]

theorem complete_pushAll_of_poisoned (h : a.poisoned = true) :
    (a.pushAll sha256 pages).complete = false := by
  induction pages generalizing a with
  | nil => simp [pushAll, complete, h]
  | cons page rest ih => exact ih (poisoned_push h)

theorem poisoned_of_error {e : DocumentError} (h : (a.push sha256 page).2 = .error e) :
    (a.push sha256 page).1.poisoned = true := by
  unfold push at h ⊢
  split at h
  · cases h
  · rfl

variable (sha256) in
theorem accepts_or_poisoned (pages : List ReportPage) : (new.pushAll sha256 pages).poisoned = true ∨
      (new.pushAll sha256 pages).Accepts sha256 pages := by
  induction pages using List.reverseRecOn with
  | nil => exact .inr ⟨rfl, rfl, rfl, .inl ⟨rfl, rfl, rfl⟩⟩
  | append_singleton pages page ih =>
    rw [pushAll_append]
    rcases ih with hpoisoned | haccepts
    · exact .inl (poisoned_push hpoisoned)
    cases hpush : (new.pushAll sha256 pages).pushInner sha256 page with
    | error => exact .inl (by simp [push, hpush])
    | ok =>
      rw [push_of_ok hpush]
      exact .inr (haccepts.pushInner hpush)

theorem delivers_of_complete (h : (new.pushAll sha256 pages).complete = true) :
    ∃ m, Delivers sha256 m pages := by
  rw [complete, Bool.and_eq_true, Bool.not_eq_true'] at h
  rcases accepts_or_poisoned sha256 pages with hpoisoned | haccepts
  · rw [h.2] at hpoisoned
    cases hpoisoned
  rcases haccepts.digest with ⟨-, -, hopen⟩ | ⟨m, d, hpages, hcovers, ⟨hopen, -⟩ | ⟨-, hcount, hd⟩⟩
  · rw [h.1] at hopen
    cases hopen
  · rw [h.1] at hopen
    cases hopen
  obtain ⟨_, hchecks, hd⟩ := bind_eq_ok.mp hd
  rw [ensure_eq_ok, Bool.and_eq_true, beq_iff_eq, beq_iff_eq, hcovers.manifest] at hchecks
  refine ⟨m, hpages, hcount ▸ haccepts.indices, ?_, hcovers.ascending, ?_, _,
    chained_of_eq_ok hcovers.chain, (Except.ok.inj hd).symm⟩
  · rw [← hcovers.count, hchecks.1]
  · rw [← hcovers.unmapped, hchecks.2]

end PageAccumulator

/-! ### Feeding the pages of a report -/

/-- The accumulator has got the rows before page `k`, which are those of the digest. -/
structure PageAccumulator.Awaits (m : ReportManifest) (d : PageDigest) (k : ℕ)
    (a : PageAccumulator) : Prop where
  unfinished : a.finished = false
  unpoisoned : a.poisoned = false
  next : a.nextPage = k
  digest : a.digestFor sha256 m = .ok d

section Feed

variable {sha256} {a : PageAccumulator} {m : ReportManifest} {d e : PageDigest} {k : ℕ}
  {records : List IntentRecord}

/-- The page of a snapshot with some rows. -/
def pageOf (m : ReportManifest) (records : List IntentRecord) (k : ℕ) : ReportPage :=
  ⟨m, k, (records.drop (k * recordsPerPage)).take recordsPerPage⟩

/-- A page that continues the rows of the digest. -/
theorem PageAccumulator.Awaits.pushInner (h : a.Awaits sha256 m d k) (hm : d.manifest = m)
    (hrows : (pageOf m records k).records.foldlM (PageDigest.push sha256) d = .ok e) :
    a.pushInner sha256 (pageOf m records k) =
      if k + 1 = m.pageCount then do
        let computed ← e.finish
        ensure (computed == m.recordsDigest) invalid
        return ⟨none, k + 1, true, false⟩
      else .ok ⟨some e, k + 1, false, false⟩ := by
  have hpage : (pageOf m records k).manifest = m ∧ (pageOf m records k).pageIndex = k := ⟨rfl, rfl⟩
  simp only [PageAccumulator.pushInner, hpage, h.unfinished, h.unpoisoned, h.next, h.digest, hm,
    hrows, ensure, Bool.not_false, Bool.and_self, beq_self_eq_true, decide_true, if_true, bind,
    Except.bind, pure, Except.pure]

/-- The rows before a page are taken if all of them are. -/
theorem exists_digest (hall : records.foldlM (PageDigest.push sha256) d = .ok e) (n : ℕ) :
    ∃ d', (records.take n).foldlM (PageDigest.push sha256) d = .ok d' ∧
      (records.drop n).foldlM (PageDigest.push sha256) d' = .ok e := by
  rw [← List.take_append_drop n records, List.foldlM_append] at hall
  exact bind_eq_ok.mp hall

/-- The rows of a page lead from the digest before it to the one behind it. -/
theorem foldlM_page {d₀ d' : PageDigest}
    (hd : (records.take (k * recordsPerPage)).foldlM (PageDigest.push sha256) d₀ = .ok d)
    (hd' : (records.take ((k + 1) * recordsPerPage)).foldlM (PageDigest.push sha256) d₀ = .ok d') :
    (pageOf m records k).records.foldlM (PageDigest.push sha256) d = .ok d' := by
  rw [Nat.succ_mul, List.take_add, List.foldlM_append, hd] at hd'
  exact hd'

theorem awaits_page {d₀ : PageDigest} (hnew : PageDigest.new sha256 m = .ok d₀)
    (hall : records.foldlM (PageDigest.push sha256) d₀ = .ok e) (hk : k < m.pageCount) :
    ∃ d, (records.take (k * recordsPerPage)).foldlM (PageDigest.push sha256) d₀ = .ok d ∧
      (PageAccumulator.new.pushAll sha256 ((List.range k).map (pageOf m records))).Awaits
        sha256 m d k := by
  induction k with
  | zero => exact ⟨d₀, by simp [pure, Except.pure], rfl, rfl, rfl, hnew⟩
  | succ k ih =>
    obtain ⟨d, hd, hawaits⟩ := ih (Nat.lt_of_succ_lt hk)
    obtain ⟨d', hd', -⟩ := exists_digest hall ((k + 1) * recordsPerPage)
    have hm := ((PageDigest.covers_new hnew).pushAll hd).manifest
    have hpush := hawaits.pushInner hm (foldlM_page hd hd')
    rw [if_neg (Nat.ne_of_lt hk)] at hpush
    refine ⟨d', hd', ?_⟩
    rw [List.range_succ, List.map_append, List.map_singleton, PageAccumulator.pushAll_append,
      PageAccumulator.push_of_ok hpush]
    exact ⟨rfl, rfl, rfl, rfl⟩

/-- The pages of a manifest that names the hash of its rows complete the accumulator, the last of
them and none before. -/
theorem complete_pages {d₀ : PageDigest} (hnew : PageDigest.new sha256 m = .ok d₀)
    (hall : records.foldlM (PageDigest.push sha256) d₀ = .ok e)
    (hfinish : e.finish = .ok m.recordsDigest) (hlength : records.length = m.totalRecords)
    (hk : k ≤ m.pageCount) :
    (PageAccumulator.new.pushAll sha256 ((List.range k).map (pageOf m records))).complete =
      decide (k = m.pageCount) := by
  rcases Nat.lt_or_eq_of_le hk with hk | rfl
  · obtain ⟨d, -, hawaits⟩ := awaits_page hnew hall hk
    simp [PageAccumulator.complete, hawaits.unfinished, Nat.ne_of_lt hk]
  have hpos : 0 < m.pageCount := Nat.lt_of_lt_of_le Nat.one_pos (le_max_right _ _)
  obtain ⟨n, hn⟩ := Nat.exists_eq_succ_of_ne_zero hpos.ne'
  obtain ⟨d, hd, hawaits⟩ := awaits_page hnew hall (k := n) (by omega)
  -- nothing is left behind the last page
  have hcovered : records.length ≤ (n + 1) * recordsPerPage := by
    have hcount : m.pageCount = max ((m.totalRecords + 127) / 128) 1 := rfl
    rw [hlength, recordsPerPage]
    omega
  have hd' : (records.take ((n + 1) * recordsPerPage)).foldlM (PageDigest.push sha256) d₀ = .ok e :=
    by rwa [List.take_of_length_le hcovered]
  have hm := ((PageDigest.covers_new hnew).pushAll hd).manifest
  have hpush := hawaits.pushInner hm (foldlM_page hd hd')
  rw [if_pos hn.symm, hfinish] at hpush
  have hok : (PageAccumulator.new.pushAll sha256 ((List.range n).map (pageOf m records))).pushInner
      sha256 (pageOf m records n) = .ok ⟨none, n + 1, true, false⟩ := by
    rw [hpush]
    simp [ensure, bind, Except.bind, pure, Except.pure]
  rw [hn, List.range_succ, List.map_append, List.map_singleton, PageAccumulator.pushAll_append,
    PageAccumulator.push_of_ok hok]
  simp [PageAccumulator.complete]

theorem flatMap_pageOf (k : ℕ) : ((List.range k).map (pageOf m records)).flatMap (·.records) =
    records.take (k * recordsPerPage) := by
  induction k with
  | zero => simp
  | succ k ih =>
    rw [List.range_succ, List.map_append, List.flatMap_append, ih, Nat.succ_mul, List.take_add]
    simp [pageOf]

end Feed

end BlindPass.Recovery
