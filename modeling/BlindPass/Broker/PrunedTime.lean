import BlindPass.Broker.OneUse
import BlindPass.Broker.Revocations

/-!
# Pruning and the time in force

A time reply writes the new high-water mark, prunes both journals by the signed time and only
then puts the time in force in memory. What it prunes is out of date at the signed time. Once the
reply has succeeded this stays so: memory and disk hold a mark that no later reply passes by more
than the tolerance. If a call fails after a compacted file is in place, the old time stays in
force although records are gone by the new one, and a consumed grant can be accepted again.
-/

namespace BlindPass.Broker

open Fleet (Grant TimeReply)
open Storage (Slot)

/-! ### What a pruning drops -/

namespace GrantJournal

variable {j j' : GrantJournal} {slot slot' : Slot JournalLine} {id : String}
  {expiresAtMs authenticatedTimeMs : ℕ} {r : Except String Unit}

theorem rewrite_renames (j : GrantJournal) (slot : Slot JournalLine)
    (records : Std.TreeMap String ℕ) (history : Option ConsumptionHistory) (io : Slot.ReplaceIo) :
    ((j.rewrite slot records history io).1 = slot ∧ (j.rewrite slot records history io).2 ≠ .ok ()) ∨
      (io.renames = true ∧
        (io.directory = true → (j.rewrite slot records history io).2 = .ok ())) := by
  have hreplace := slot.replace_renames (j.fileLines records history) io
  unfold rewrite
  dsimp only
  split
  · exact .inl ⟨rfl, nofun⟩
  split
  · exact .inl ⟨rfl, nofun⟩
  split
  · next heq =>
    rw [heq] at hreplace
    simpa using hreplace
  · next heq =>
    rw [heq] at hreplace
    simpa using hreplace

/-- A pruning forgets a record by replacing the file, and the record is a day past its expiry. -/
theorem prune_forgets {io : PruneIo} (hr : Remembers j slot id expiresAtMs)
    (h : j.prune slot authenticatedTimeMs io = (j', slot', r)) :
    Remembers j' slot' id expiresAtMs ∨ (isRetained authenticatedTimeMs expiresAtMs = false ∧
      io.replace.renames = true ∧ (io.replace.directory = true → io.stat = true → r = .ok ())) := by
  cases hretained : isRetained authenticatedTimeMs expiresAtMs with
  | true => exact .inl (prune_remembers hr hretained h).1
  | false =>
    have hsync := synchronize_preserves (Mentions id expiresAtMs) j slot io.sync
    unfold prune at h
    split at h
    · cases h
      exact .inl hr
    split at h
    · next hs =>
      cases h
      rw [hs] at hsync
      exact .inl ⟨hr.memory, hsync.named hr.disk⟩
    next slot₁ j₁ hs =>
    have hr₁ : Remembers j₁ slot₁ id expiresAtMs := remembers_synchronize hr hs
    dsimp only at h
    split at h
    · cases h
      exact .inl hr₁
    have hrewrite := j₁.rewrite_renames slot₁
      (j₁.consumed.filter fun _ expiresAtMs => isRetained authenticatedTimeMs expiresAtMs)
      (j₁.prunedHistory (j₁.consumed.filter
        fun _ expiresAtMs => isRetained authenticatedTimeMs expiresAtMs)) io.replace
    split at h
    · next hw =>
      cases h
      rw [hw] at hrewrite
      rcases hrewrite with ⟨rfl, -⟩ | ⟨hrenames, hok⟩
      · exact .inl hr₁
      · exact .inr ⟨rfl, hrenames, fun hdirectory => absurd (hok hdirectory) (by simp)⟩
    · next hw =>
      rw [hw] at hrewrite
      have hrenames : io.replace.renames = true := by
        rcases hrewrite with ⟨-, hno⟩ | ⟨hrenames, -⟩
        · exact absurd rfl hno
        · exact hrenames
      split at h
      · next hstat =>
        cases h
        refine .inr ⟨rfl, hrenames, fun _ hstat' => ?_⟩
        simp [hstat'] at hstat
      · cases h
        exact .inr ⟨rfl, hrenames, fun _ _ => rfl⟩

end GrantJournal

namespace RevocationJournal

variable {j j' : RevocationJournal} {disk disk' : Disk} {id : String}
  {retainUntilMs authenticatedTimeMs : ℕ} {r : Except String Unit}

/-- A reader of these lines learns of the tombstone, or refuses the file. -/
def Mentions (id : String) (retainUntilMs : ℕ) (lines : List (Option RevocationLine)) : Prop :=
  none ∈ lines ∨ ∃ outcome, some ⟨id, retainUntilMs, outcome⟩ ∈ lines

/-- The tombstone is in memory and in every file the current entry may lead to. -/
structure Remembers (j : RevocationJournal) (disk : Disk) (id : String) (retainUntilMs : ℕ) :
    Prop where
  memory : j.tombstones[id]? = some retainUntilMs
  disk : disk.journal.KeptNamed (Mentions id retainUntilMs)

/-- A pruning forgets a tombstone by replacing the file, and its retention has passed. -/
theorem prune_forgets {io : PruneIo} (hr : Remembers j disk id retainUntilMs)
    (h : j.prune disk authenticatedTimeMs io = (j', disk', r)) :
    Remembers j' disk' id retainUntilMs ∨ (retainUntilMs ≤ authenticatedTimeMs ∧
      io.journal.renames = true ∧ (io.journal.directory = true → r = .ok ())) := by
  unfold prune at h
  dsimp only at h
  split at h
  · cases h
    exact .inl hr
  split at h
  · -- only the acknowledgements may have changed
    cases h
    exact .inl ⟨hr.memory, hr.disk⟩
  have hreplace := disk.journal.replace_renames
    (j.compactedLines (j.retained authenticatedTimeMs)) io.journal
  by_cases hdue : retainUntilMs ≤ authenticatedTimeMs
  · split at h
    · next hw =>
      cases h
      rw [hw] at hreplace
      rcases hreplace with ⟨rfl, -⟩ | ⟨hrenames, hok⟩
      · exact .inl ⟨hr.memory, hr.disk⟩
      · exact .inr ⟨hdue, hrenames, fun hdirectory => absurd (hok hdirectory) (by simp)⟩
    · next hw =>
      cases h
      rw [hw] at hreplace
      rcases hreplace with ⟨-, hno⟩ | ⟨hrenames, -⟩
      · exact absurd rfl hno
      · exact .inr ⟨hdue, hrenames, fun _ => rfl⟩
  · -- a tombstone still retained is on a line of the compacted file
    have hkept := getElem?_retained.mpr ⟨hr.memory, not_le.mp hdue⟩
    have hmentions : Mentions id retainUntilMs
        ((j.compactedLines (j.retained authenticatedTimeMs)).map some) :=
      .inr ⟨j.outcomes[id]?, List.mem_map_of_mem (mem_compactedLines.mpr ⟨hkept, rfl⟩)⟩
    have hdisk := (Slot.replace_preserves hmentions disk.journal io.journal).named hr.disk
    left
    split at h
    · next hw =>
      cases h
      exact ⟨hr.memory, by rwa [hw] at hdisk⟩
    · next hw =>
      cases h
      exact ⟨hkept, by rwa [hw] at hdisk⟩

theorem prune_clean (h : j.prune disk authenticatedTimeMs .clean = (j', disk', r)) : r = .ok () := by
  unfold prune compactAcknowledgements at h
  simp only [PruneIo.clean, Slot.replace, Slot.ReplaceIo.clean] at h
  split at h
  · cases h
    rfl
  split at h
  · next heq => split at heq <;> simp at heq
  · cases h
    rfl

end RevocationJournal

/-- What a journal holds about a grant. -/
inductive Entry
  | consumption (expiresAtMs : ℕ)
  | tombstone (retainUntilMs : ℕ)

/-- A pruning at this time drops it. -/
def Entry.due (authenticatedTimeMs : ℕ) : Entry → Bool
  | .consumption expiresAtMs => !GrantJournal.isRetained authenticatedTimeMs expiresAtMs
  | .tombstone retainUntilMs => retainUntilMs ≤ authenticatedTimeMs

/-- It is about this grant: a record has the grant's expiry, and a revocation is retained past
it. -/
def Entry.Concerns (grant : Grant) (id : String) : Entry → Prop
  | .consumption expiresAtMs => grant.id = id ∧ grant.expiresAtMs = expiresAtMs
  | .tombstone retainUntilMs =>
    grant.id = id ∧ grant.expiresAtMs + clockRollbackToleranceMs ≤ retainUntilMs

namespace GrantVerifier

variable {v v' : GrantVerifier} {files files' : StateFiles} {id : String} {entry : Entry}
  {reply : TimeReply} {nodeId : String} {epoch now highest controllerNowMs bound : ℕ}
  {io : TimeReplyIo} {r : Except String Unit} {e : Event}

/-- The verifier and its files hold the entry. -/
def Holds (v : GrantVerifier) (files : StateFiles) (id : String) : Entry → Prop
  | .consumption expiresAtMs => GrantJournal.Remembers v.journal files.journal id expiresAtMs
  | .tombstone retainUntilMs =>
    RevocationJournal.Remembers v.revocations files.revocations id retainUntilMs

/-- Once a compacted file is in place, no later call of the reply fails. -/
def TimeReplyIo.Settles (io : TimeReplyIo) : Prop :=
  (io.journal.replace.renames = true → io.journal.replace.directory = true ∧
    io.journal.stat = true ∧ io.revocations = .clean) ∧
  (io.revocations.journal.renames = true → io.revocations.journal.directory = true)

instance (io : TimeReplyIo) : Decidable io.Settles := inferInstanceAs (Decidable (_ ∧ _))

theorem settleJournals_forgets
    (h : v.settleJournals files highest controllerNowMs io = (v', files', r))
    (hheld : v.Holds files id entry) :
    v'.Holds files' id entry ∨ (entry.due controllerNowMs = true ∧ (io.Settles → r = .ok ())) := by
  unfold settleJournals at h
  split at h
  · cases h
    exact .inl (by cases entry <;> exact hheld)
  split at h
  · -- the consumption journal's pruning failed
    next hprune =>
    cases h
    cases entry with
    | tombstone => exact .inl hheld
    | consumption =>
      refine (GrantJournal.prune_forgets hheld hprune).imp_right
        fun ⟨hold, hrenames, hok⟩ => ⟨by simp [Entry.due, hold], fun hsettles => ?_⟩
      obtain ⟨hdirectory, hstat, -⟩ := hsettles.1 hrenames
      exact absurd (hok hdirectory hstat) nofun
  · next hprune =>
    split at h
    next hrevocations =>
    cases h
    cases entry with
    | consumption =>
      refine (GrantJournal.prune_forgets hheld hprune).imp_right
        fun ⟨hold, hrenames, _⟩ => ⟨by simp [Entry.due, hold], fun hsettles => ?_⟩
      exact RevocationJournal.prune_clean ((hsettles.1 hrenames).2.2 ▸ hrevocations)
    | tombstone =>
      refine (RevocationJournal.prune_forgets hheld hrevocations).imp_right
        fun ⟨hold, hrenames, hok⟩ => ⟨by simpa [Entry.due] using hold, fun hsettles => ?_⟩
      exact hok (hsettles.2 hrenames)

theorem Holds.of_eq (hheld : v.Holds files id entry) (hjournal : v'.journal = v.journal)
    (hrevocations : v'.revocations = v.revocations) : v'.Holds files id entry := by
  cases entry with
  | consumption => exact ⟨hjournal ▸ hheld.memory, hheld.disk⟩
  | tombstone => exact ⟨hrevocations ▸ hheld.memory, hheld.disk⟩

/-- A time reply drops only what is due at the signed time, and if nothing fails once a compacted
file is in place, a reply that drops something succeeds. -/
theorem acceptTimeReply_forgets
    (h : v.acceptTimeReply files reply nodeId epoch now io = (v', files', r))
    (hheld : v.Holds files id entry) : v'.Holds files' id entry ∨
      (entry.due reply.controllerTimeMs = true ∧ (io.Settles → r = .ok ())) := by
  have hpending : ({ v with pendingTime := none } : GrantVerifier).Holds files id entry :=
    hheld.of_eq rfl rfl
  unfold acceptTimeReply at h
  split at h
  · cases h
    exact .inl hheld
  dsimp only at h
  split at h
  · cases h
    exact .inl hpending
  split at h
  · next hsettle =>
    cases h
    exact settleJournals_forgets hsettle hpending
  · next hsettle =>
    cases h
    refine (settleJournals_forgets hsettle hpending).imp (fun hkept => ?_)
      fun ⟨hdue, _⟩ => ⟨hdue, fun _ => rfl⟩
    exact hkept.of_eq frame_dropWhere.journal frame_dropWhere.revocations

/-! ### The bound on the time -/

/-- The mark in the file is not below `bound`. -/
def MarkAbove (bound : ℕ) (lines : List (Option ℕ)) : Prop :=
  ∃ mark, lines = [some mark] ∧ bound ≤ mark

/-- The mark in memory is not below `bound`, and the time in force by no more than the
tolerance. -/
structure Floor (v : GrantVerifier) (bound : ℕ) : Prop where
  highest : bound ≤ v.highestControllerTimeMs.getD 0
  trusted : ∀ t, v.trustedTime = some t → bound ≤ t.estimatedControllerMs + clockRollbackToleranceMs

theorem timeEstimate_mark {challenge : TimeChallenge} {estimate : ℕ}
    (h : v.timeEstimate challenge reply nodeId epoch now = .ok estimate) :
    v.highestControllerTimeMs.getD 0 ≤ reply.controllerTimeMs + clockRollbackToleranceMs ∧
      reply.controllerTimeMs ≤ estimate := by
  refine ⟨?_, by rw [(timeEstimate_ok h).2.2]; omega⟩
  unfold timeEstimate at h
  split at h
  · cases h
  split at h
  · cases h
  dsimp only at h
  iterate 3
    split at h
    · cases h
  next hmark =>
  cases hhighest : v.highestControllerTimeMs with
  | none => exact zero_le
  | some =>
    rw [hhighest, Option.any_some, decide_eq_true_eq, Nat.not_lt] at hmark
    exact hmark.trans (Nat.min_le_left _ _)

/-- What a settling does to the mark: it is written first. -/
theorem settleJournals_mark
    (h : v.settleJournals files highest controllerNowMs io = (v', files', r)) :
    v'.highestControllerTimeMs = v.highestControllerTimeMs ∧ v'.trustedTime = v.trustedTime ∧
      files'.trustedTime = (files.trustedTime.replace [highest] io.trustedTime).1 ∧
      (r = .ok () → (files.trustedTime.replace [highest] io.trustedTime).2 = .ok ()) := by
  unfold settleJournals writeTrustedTime at h
  rcases hreplace : files.trustedTime.replace [highest] io.trustedTime with ⟨slot, result⟩
  rw [hreplace] at h
  cases result with
  | error =>
    cases h
    exact ⟨rfl, rfl, rfl, nofun⟩
  | ok =>
    dsimp only at h
    split at h <;> cases h <;> exact ⟨rfl, rfl, rfl, fun _ => rfl⟩

/-- A bound that holds is kept by every reply, and a reply that succeeds makes the signed time
one. -/
theorem acceptTimeReply_floor
    (h : v.acceptTimeReply files reply nodeId epoch now io = (v', files', r))
    (hbound : (v.Floor bound ∧ files.trustedTime.Kept (MarkAbove bound)) ∨
      (r = .ok () ∧ bound = reply.controllerTimeMs)) :
    v'.Floor bound ∧ files'.trustedTime.Kept (MarkAbove bound) := by
  have hunchanged (hr : r ≠ .ok ()) : v.Floor bound ∧ files.trustedTime.Kept (MarkAbove bound) :=
    hbound.resolve_right fun hok => hr hok.1
  unfold acceptTimeReply at h
  split at h
  · cases h
    exact hunchanged nofun
  dsimp only at h
  split at h
  · cases h
    exact ⟨⟨(hunchanged nofun).1.highest, (hunchanged nofun).1.trusted⟩, (hunchanged nofun).2⟩
  next estimate hest =>
  obtain ⟨hmark, hestimate⟩ := timeEstimate_mark hest
  -- the mark that is written is not below the bound
  have hwritten : bound ≤ max (v.highestControllerTimeMs.getD 0) reply.controllerTimeMs := by
    rcases hbound with hkept | ⟨-, rfl⟩
    · exact hkept.1.highest.trans (le_max_left _ _)
    · exact le_max_right _ _
  have hmarked : MarkAbove bound
      ([max (v.highestControllerTimeMs.getD 0) reply.controllerTimeMs].map some) :=
    ⟨_, rfl, hwritten⟩
  split at h
  · next hsettle =>
    cases h
    obtain ⟨hhighest, htrusted, hslot, -⟩ := settleJournals_mark hsettle
    obtain ⟨hfloor, hdisk⟩ := hunchanged nofun
    refine ⟨⟨?_, ?_⟩, ?_⟩
    · rw [hhighest]
      exact hfloor.highest
    · rw [htrusted]
      exact hfloor.trusted
    · rw [hslot]
      exact (Slot.replace_preserves hmarked _ _).kept hdisk
  · next hsettle =>
    cases h
    obtain ⟨-, -, hslot, hok⟩ := settleJournals_mark hsettle
    refine ⟨⟨hwritten, ?_⟩, ?_⟩
    · intro t ht
      cases ht
      rcases hbound with hkept | ⟨-, rfl⟩
      · exact hkept.1.highest.trans (hmark.trans (Nat.add_le_add_right hestimate _))
      · exact Nat.le_add_right_of_le hestimate
    · rw [hslot]
      exact Slot.kept_replace hmarked (hok rfl)

theorem Floor.call (hv : v.Floor bound) (hdisk : files.trustedTime.Kept (MarkAbove bound)) :
    (v.call files now e).1.Floor bound ∧
      (v.call files now e).2.1.trustedTime.Kept (MarkAbove bound) := by
  by_cases hreply : ∃ reply nodeId epoch io, e = .acceptTimeReply reply nodeId epoch io
  · obtain ⟨reply, nodeId, epoch, io, rfl⟩ := hreply
    rcases hcall : v.acceptTimeReply files reply nodeId epoch now io with ⟨v', files', r⟩
    simp only [GrantVerifier.call, hcall]
    exact acceptTimeReply_floor hcall (.inl ⟨hv, hdisk⟩)
  push Not at hreply
  cases hchallenge : e.isChallenge with
  | false =>
    obtain ⟨-, htrusted, hhighest, hslot, -⟩ := @times_call v files now e hchallenge hreply
    exact ⟨⟨hhighest ▸ hv.highest, htrusted ▸ hv.trusted⟩, hslot ▸ hdisk⟩
  | true =>
    cases e with
    | beginTimeChallenge => exact ⟨⟨hv.highest, hv.trusted⟩, hdisk⟩
    | _ => cases hchallenge

theorem readTrustedTime_mark {slot : Slot ℕ} {io : TrustedTimeIo} {highest : Option ℕ}
    (hdisk : slot.Kept (MarkAbove bound)) (h : readTrustedTime slot io = .ok highest) :
    ∃ mark, highest = some mark ∧ bound ≤ mark := by
  obtain ⟨f, hf, mark, hlines, hmark⟩ := hdisk.named.file?
  unfold readTrustedTime at h
  simp only [hf, hlines] at h
  split_ifs at h
  split at h
  · next heq _ =>
    cases heq
    split_ifs at h
    exact ⟨mark, (Except.ok.inj h).symm, hmark⟩
  · cases h

/-- A start reads the mark, and no time is in force yet. -/
theorem floor_withStateFiles {io : OpenIo} {result : Except String GrantVerifier}
    (h : withStateFiles files io = (files', result))
    (hdisk : files.trustedTime.Kept (MarkAbove bound)) :
    files'.trustedTime = files.trustedTime ∧ ∀ v, result = .ok v → v.Floor bound := by
  unfold withStateFiles at h
  split at h
  · cases h
    exact ⟨rfl, by simp⟩
  next highest hread =>
  iterate 3
    split at h
    · cases h
      exact ⟨rfl, by simp⟩
  cases h
  refine ⟨rfl, ?_⟩
  intro v hv
  cases hv
  obtain ⟨mark, rfl, hmark⟩ := readTrustedTime_mark hdisk hread
  exact ⟨hmark, by simp [fresh]⟩

end GrantVerifier

/-! ### Runs -/

namespace Host

variable {h : Host} {e : Event} {bound : ℕ} {grant : Grant}

/-- No time below `bound` is or comes into force, up to the tolerance. -/
structure Floor (h : Host) (bound : ℕ) : Prop where
  verifier : ∀ v, h.verifier = some v → v.Floor bound
  disk : h.files.trustedTime.Kept (GrantVerifier.MarkAbove bound)

/-- After a power loss only files are found that were there. -/
def AdmitsAnyTime (h : Host) : Event → Prop
  | .powerLoss found _ _ => Survives h.files found
  | _ => True

instance (h : Host) : ∀ e, Decidable (h.AdmitsAnyTime e)
  | .powerLoss found _ _ => inferInstanceAs (Decidable (Survives h.files found))
  | .acceptTimeReply .. | .acceptGrant .. | .elapse _ | .beginTimeChallenge _ | .consume ..
  | .revoke .. | .observeIssuerEpoch _ | .retireOtherRecipientKeys _ | .revokeWorkload _
  | .revokeStalePolicy _ | .retryRevocationPersistence _ | .acknowledgeRevocationOutcome ..
  | .restart _ => .isTrue trivial

theorem Floor.start (hdisk : h.files.trustedTime.Kept (GrantVerifier.MarkAbove bound))
    (io : GrantVerifier.OpenIo) : (h.start io).Floor bound := by
  rcases hopen : GrantVerifier.withStateFiles h.files io with ⟨files, result⟩
  obtain ⟨hslot, hfloor⟩ := GrantVerifier.floor_withStateFiles hopen hdisk
  unfold Host.start
  rw [hopen]
  cases result with
  | error => exact ⟨by simp, hslot ▸ hdisk⟩
  | ok v =>
    refine ⟨fun w hw => ?_, hslot ▸ hdisk⟩
    cases hw
    exact hfloor v rfl

/-- No event lowers the bound. -/
theorem Floor.step (hfloor : h.Floor bound) (hadm : h.AdmitsAnyTime e) :
    (h.step e).1.Floor bound := by
  cases hcall : e.isCall with
  | true =>
    cases hv : h.verifier with
    | none =>
      rw [step_call_of_none hv hcall]
      exact hfloor
    | some v =>
      rw [step_call hv hcall]
      have hkept : h.files.trustedTime.Kept _ := hfloor.disk
      obtain ⟨hverifier, hdisk⟩ := (hfloor.verifier v hv).call hkept
      refine ⟨fun w hw => ?_, hdisk⟩
      cases hw
      exact hverifier
  | false =>
    cases e with
    | elapse => exact ⟨hfloor.verifier, hfloor.disk⟩
    | restart io => exact Floor.start hfloor.disk io
    | powerLoss found boottime io =>
      obtain ⟨f, hf, hmark⟩ := hfloor.disk.survives hadm.1
      exact Floor.start (Slot.kept_restored hf hmark) io
    | _ => cases hcall

/-- Redelivered now, the grant is expired or too old: under the time in force, and under every
time that the mark on disk lets in. -/
structure Outdates (h : Host) (grant : Grant) : Prop where
  memory : ∀ v, h.verifier = some v → ∀ now time, v.trustedControllerTimeMs now = some time →
    grant.expiresAtMs ≤ time ∨ maxDocumentAgeMs < time - grant.issuedAtMs
  disk : ∀ mark, GrantVerifier.readTrustedTime h.files.trustedTime ⟨true, true, true⟩ =
      .ok (some mark) →
    grant.expiresAtMs + clockRollbackToleranceMs ≤ mark ∨
      maxDocumentAgeMs + clockRollbackToleranceMs < mark - grant.issuedAtMs

theorem Floor.outdates (hfloor : h.Floor bound)
    (hgrant : grant.expiresAtMs + clockRollbackToleranceMs ≤ bound) : h.Outdates grant := by
  constructor
  · intro v hv now time htime
    left
    unfold GrantVerifier.trustedControllerTimeMs at htime
    split at htime
    · cases htime
    next t ht =>
    have hbound := (hfloor.verifier v hv).trusted t ht
    dsimp only at htime
    split_ifs at htime
    obtain ⟨-, rfl⟩ := U64.checkedAdd_eq_some.mp htime
    omega
  · intro mark hread
    left
    obtain ⟨mark', hmark', hbound⟩ := GrantVerifier.readTrustedTime_mark hfloor.disk hread
    cases hmark'
    exact hgrant.trans hbound

end Host

/-- A verifier whose controller may sign any time. -/
def anyTime : Execution.Machine Host Event Answer where
  Start h := h.verifier = none
  Admits := Host.AdmitsAnyTime
  step := Host.step

instance (h : Host) (e : Event) : Decidable (anyTime.Admits h e) :=
  inferInstanceAs (Decidable (h.AdmitsAnyTime e))

variable {before after : List (Execution.Transition Host Event Answer)}
  {t : Execution.Transition Host Event Answer} {h : Host} {grant : Grant} {id : String}
  {entry : Entry} {reply : TimeReply} {nodeId : String} {epoch : ℕ}
  {io : GrantVerifier.TimeReplyIo} {v v' : GrantVerifier}

theorem Entry.expires_of_due {time : ℕ} (hdue : entry.due time = true)
    (hconcerns : entry.Concerns grant id) :
    grant.expiresAtMs + clockRollbackToleranceMs ≤ time := by
  cases entry with
  | consumption =>
    obtain ⟨-, rfl⟩ := hconcerns
    have hold := GrantJournal.le_of_isRetained_eq_false (by simpa [Entry.due] using hdue)
    exact (Nat.add_le_add_left (by decide) _).trans hold
  | tombstone =>
    exact hconcerns.2.trans (by simpa [Entry.due] using hdue)

/-- Whatever a time reply drops although nothing fails once a compacted file is in place belongs
to a grant that is outdated, in every state from then on. -/
theorem pruned_expired (hrun : anyTime.Run (before ++ t :: after) h)
    (hevent : t.event = .acceptTimeReply reply nodeId epoch io) (hv : t.before.verifier = some v)
    (hv' : t.after.verifier = some v') (hheld : v.Holds t.before.files id entry)
    (hdropped : ¬ v'.Holds t.after.files id entry) (hsettles : io.Settles)
    (hconcerns : entry.Concerns grant id) : h.Outdates grant := by
  obtain ⟨-, -, ht⟩ := hrun.split
  have hstep : t.after = (t.before.step t.event).1 := by
    rw [ht]
    rfl
  rw [hevent, Host.step_call hv rfl] at hstep
  rcases hcall : v.acceptTimeReply t.before.files reply nodeId epoch t.before.boottime io with
    ⟨w, files, r⟩
  simp only [GrantVerifier.call, hcall] at hstep
  rw [hstep] at hv' hdropped
  obtain rfl : w = v' := Option.some.inj hv'
  rcases GrantVerifier.acceptTimeReply_forgets hcall hheld with hkept | ⟨hdue, hok⟩
  · exact absurd hkept hdropped
  -- the reply succeeded, so that its time bounds all that come into force later
  obtain ⟨hverifier, hdisk⟩ := GrantVerifier.acceptTimeReply_floor hcall (.inr ⟨hok hsettles, rfl⟩)
  have hfloor : t.after.Floor reply.controllerTimeMs := by
    rw [hstep]
    refine ⟨fun u hu => ?_, hdisk⟩
    cases hu
    exact hverifier
  have hlater := hrun.relates (R := fun a b => a.Floor reply.controllerTimeMs →
      b.Floor reply.controllerTimeMs) (fun _ hs => hs) (fun _ _ _ hab hbc ha => hbc (hab ha))
    (fun _ s e _ hadm hs => hs.step hadm) hfloor
  exact hlater.outdates (Entry.expires_of_due hdue hconcerns)

namespace Sample

/-- The grant is accepted and consumed, and a challenge is sent. -/
def consumedOnce : List Event :=
  .restart .clean :: synchronise 100000 ++
    [deliver "gr_1", consume "gr_1" .clean, .beginTimeChallenge "later", .elapse 10]

/-- A host on which the grant was consumed. -/
def spender : Host := (anyTime.play host consumedOnce).2

/-- A reply two days ahead. -/
def jump (io : GrantVerifier.TimeReplyIo) : Event :=
  .acceptTimeReply ⟨"node_1", "later", 172900000, 172900006, 1⟩ "node_1" 1 io

/-- The journal is compacted, and then its metadata cannot be read. -/
def unreadable : GrantVerifier.TimeReplyIo :=
  { GrantVerifier.TimeReplyIo.clean with
    journal := { GrantJournal.PruneIo.clean with stat := false } }

/-- The expiry on record in memory. -/
def recordOf (h : Host) : Option ℕ := h.verifier.bind fun v => v.journal.consumed["gr_1"]?

/-- Every file that the journal's entry may lead to has the record. -/
def recorded (h : Host) : Bool :=
  h.files.journal.entry.visible.any fun d => d.values.all fun f => f.lines.any fun
    | some (.consumption id expiresAtMs _) => id == "gr_1" && expiresAtMs == 160000
    | _ => false

theorem holds_of_recorded {h : Host} {v : GrantVerifier} (hv : h.verifier = some v)
    (hmemory : recordOf h = some 160000) (hdisk : recorded h = true) :
    v.Holds h.files "gr_1" (.consumption 160000) := by
  refine ⟨by simpa [recordOf, hv] using hmemory, ?_⟩
  cases hd : h.files.journal.entry.visible with
  | none => simp [recorded, hd] at hdisk
  | some d =>
    rw [recorded, hd, Option.any_some, List.all_eq_true] at hdisk
    refine ⟨d, hd, fun f hf => .inr ?_⟩
    obtain ⟨line, hline, hmatch⟩ := List.any_eq_true.mp (hdisk f hf)
    split at hmatch
    · next id expiresAtMs binding =>
      obtain ⟨rfl, rfl⟩ : id = "gr_1" ∧ expiresAtMs = 160000 := by simpa using hmatch
      exact ⟨binding, hline⟩
    · cases hmatch

theorem not_holds_of_recordOf {h : Host} {v : GrantVerifier} (hv : h.verifier = some v)
    (hmemory : recordOf h = none) : ¬ v.Holds h.files "gr_1" (.consumption 160000) := by
  intro hheld
  have hrecord : v.journal.consumed["gr_1"]? = some 160000 := hheld.memory
  simp [recordOf, hv, hrecord] at hmemory

theorem run_jump (io : GrantVerifier.TimeReplyIo) :
    anyTime.Run ((anyTime.play host consumedOnce).1 ++ [anyTime.transition spender (jump io)])
      (spender.step (jump io)).1 :=
  (Execution.Machine.run_play (m := anyTime) (s := host) rfl (by decide +kernel)).step trivial

end Sample

theorem pruned_expired_jump : Sample.recordOf (Sample.spender.step (Sample.jump .clean)).1 = none ∧
      (Sample.spender.step (Sample.jump .clean)).1.Outdates (Sample.grant "gr_1") := by
  have hnone : Sample.recordOf (Sample.spender.step (Sample.jump .clean)).1 = none := by
    decide +kernel
  obtain ⟨v, hv⟩ := Option.isSome_iff_exists.mp
    (show Sample.spender.verifier.isSome = true by decide +kernel)
  obtain ⟨v', hv'⟩ := Option.isSome_iff_exists.mp
    (show (Sample.spender.step (Sample.jump .clean)).1.verifier.isSome = true by decide +kernel)
  exact ⟨hnone, pruned_expired (Sample.run_jump .clean) rfl hv hv'
    (Sample.holds_of_recorded hv (by decide +kernel) (by decide +kernel))
    (Sample.not_holds_of_recordOf hv' hnone) (by decide +kernel) ⟨rfl, rfl⟩⟩

/-- A reply two days ahead drops the record of a consumed grant and then fails: the old time stays
in force, and the grant is accepted again. -/
theorem pruned_ahead : ∃ before t h v v', anyTime.Run (before ++ [t]) h ∧
    t.event = Sample.jump Sample.unreadable ∧ t.before.verifier = some v ∧
    t.after.verifier = some v' ∧ v.Holds t.before.files "gr_1" (.consumption 160000) ∧
    ¬ v'.Holds t.after.files "gr_1" (.consumption 160000) ∧
    Entry.Concerns (Sample.grant "gr_1") "gr_1" (.consumption 160000) ∧
    ¬ h.Outdates (Sample.grant "gr_1") ∧
    (h.step (Sample.deliver "gr_1")).2 = .accepted (.ok true) := by
  obtain ⟨v, hv⟩ := Option.isSome_iff_exists.mp
    (show Sample.spender.verifier.isSome = true by decide +kernel)
  obtain ⟨v', hv'⟩ := Option.isSome_iff_exists.mp
    (show (Sample.spender.step (Sample.jump Sample.unreadable)).1.verifier.isSome = true by
      decide +kernel)
  refine ⟨_, _, _, v, v', Sample.run_jump Sample.unreadable, rfl, hv, hv',
    Sample.holds_of_recorded hv (by decide +kernel) (by decide +kernel),
    Sample.not_holds_of_recordOf hv' (by decide +kernel), ⟨rfl, rfl⟩, ?_, by decide +kernel⟩
  intro houtdates
  -- the time in force is still that of the first reply
  have htime : ((Sample.spender.step (Sample.jump Sample.unreadable)).1.verifier.bind
      (·.trustedControllerTimeMs 5020)) = some 100024 := by
    decide +kernel
  have hmemory := houtdates.memory v' hv' 5020 100024 (by simpa [hv'] using htime)
  simp [Sample.grant, maxDocumentAgeMs] at hmemory

end BlindPass.Broker
