import BlindPass.Broker.SessionExclusion

/-!
# Room for the session table

The journal counts its records before it files a new one, but it learns the size of its document
only when it writes. A record with long identifiers takes more than a thousandth of the document's
limit, so that a table well below the limit of records cannot be written any more: the reservation
that makes it too large fences the journal, and no later attempt to write can succeed.

A table with room for the longest form of each of its records is always written.
-/

namespace BlindPass.Broker

open Canon (formSize Writable IsPlain)
open Canon (fieldsSize fieldsSize_cons fieldsSize_nil formSize_object formSize_unsigned_le
  isPlain_of_isAlphanum itemsSize maxDepth writeString)
open Fleet (maxSafeInteger)

/-! ### The longest form of a record -/

/-- What a record of the binding takes at most, at any time, with a comma. -/
def recordBound (b : SessionBinding) : ℕ :=
  formSize (bindingValue b) + formSize (.string b.account) + 1089

/-- What a table takes at most, at any time. -/
def tableBound (records : Std.TreeMap String SessionRecord) : ℕ :=
  64 + Table.total records fun _ r => recordBound r.binding

theorem isPlain_of_validSessionId {value : String} (h : validSessionId value) :
    ∀ c ∈ value.toList, IsPlain c := by
  intro c hc
  simp only [validSessionId, Bool.and_eq_true, List.all_eq_true] at h
  have hchar := h.2 c hc
  simp only [Bool.or_eq_true, beq_iff_eq] at hchar
  rcases hchar with (((halnum | rfl) | rfl) | rfl) | rfl
  · exact isPlain_of_isAlphanum halnum
  all_goals decide

theorem isPlain_of_validSessionUnit {value : String} (h : validSessionUnit value) :
    ∀ c ∈ value.toList, IsPlain c := by
  intro c hc
  simp only [validSessionUnit, Bool.and_eq_true, List.all_eq_true] at h
  have hchar := h.2 c hc
  simp only [Bool.or_eq_true, beq_iff_eq] at hchar
  rcases hchar with ((((halnum | rfl) | rfl) | rfl) | rfl) | rfl
  · exact isPlain_of_isAlphanum halnum
  all_goals decide

variable {c : Char} {n m : ℕ} {r : SessionRecord} {request : SessionRequest}

theorem isPlain_of_isLowerHex (h : isLowerHex c) : IsPlain c := by
  apply isPlain_of_isAlphanum
  simp only [isLowerHex, Bool.or_eq_true, Bool.and_eq_true, decide_eq_true_eq] at h
  rcases h with hdigit | ⟨hle, hle'⟩
  · simp [Char.isAlphanum, hdigit]
  have hlower : c.isLower = true := by
    have hz : c ≤ 'z' := Canon.le_iff_toNat_le.mpr
      ((Canon.le_iff_toNat_le.mp hle').trans (by decide))
    simpa [Char.isLower] using ⟨hle, hz⟩
  simp [Char.isAlphanum, Char.isAlpha, hlower]

theorem formSize_optionalText_le {value : Option String} (hn : 4 ≤ n)
    (h : ∀ text, value = some text → formSize (.string text) ≤ n) :
    formSize (optionalText value) ≤ n := by
  cases value with
  | none => exact hn
  | some text => exact h text rfl

variable {value : Option ℕ} {unit : String} {highWater depth : ℕ} {chars : List Char}

theorem formSize_optionalNumber_le (h : ∀ n, value = some n → n < 10 ^ 16) :
    formSize (optionalNumber value) ≤ 16 := by
  cases value with
  | none => decide
  | some n => exact formSize_unsigned_le (by decide) (h n rfl)

theorem formSize_helperUnit_le (h : validHelperUnit unit) : formSize (.string unit) ≤ 402 := by
  simp only [validHelperUnit, Bool.and_eq_true, decide_eq_true_eq, List.all_eq_true] at h
  have hle := Canon.formSize_string_le (s := unit) (n := 2) fun c hc => by
    have hchar := h.2 c hc
    simp only [Bool.or_eq_true, beq_iff_eq] at hchar
    rcases hchar with (((((halnum | rfl) | rfl) | rfl) | rfl) | rfl) | rfl
    · rw [Canon.size_escapeChar_of_isPlain (isPlain_of_isAlphanum halnum)]
      decide
    all_goals decide
  have hbytes := h.1.1.2
  omega

theorem formSize_sessionUnit_le (h : validSessionUnit unit) : formSize (.string unit) ≤ 202 := by
  have hle := Canon.formSize_string_le_of_isPlain (isPlain_of_validSessionUnit h)
  simp only [validSessionUnit, Bool.and_eq_true, decide_eq_true_eq] at h
  have hbytes := h.1.1.1.2
  omega

theorem formSize_invocation_le {invocation : String} (h : validInvocation invocation) :
    formSize (.string invocation) ≤ 34 := by
  simp only [validInvocation, Bool.and_eq_true, beq_iff_eq, List.all_eq_true] at h
  have hle := Canon.formSize_string_le_of_isPlain fun c hc => isPlain_of_isLowerHex (h.2 c hc)
  omega

theorem formSize_handle_le {handle : Option RevokeHandle} {account : String}
    (h : ∀ x, handle = some x → x.isValid account) :
    formSize (handle.elim .null handleValue) ≤ formSize (.string account) + 180 := by
  cases handle with
  | none => simp [formSize]
  | some x =>
    have hx := h x rfl
    have hkind : Canon.size (writeString "kind") = 6 := by decide
    have haccount : Canon.size (writeString "account") = 9 := by decide
    cases x with
    | fixture =>
      simp only [RevokeHandle.isValid, Bool.and_eq_true, beq_iff_eq] at hx
      obtain ⟨rfl, hreference⟩ := hx
      have hle := Canon.formSize_string_le_of_isPlain (isPlain_of_validSessionId hreference)
      simp only [validSessionId, Bool.and_eq_true, decide_eq_true_eq] at hreference
      have hbytes := hreference.1.2
      have hname : Canon.size (writeString "session_reference") = 19 := by decide
      have hfixture : formSize (.string "fixture") = 9 := by decide
      simp only [Option.elim_some, handleValue, formSize, fieldsSize, List.length_cons,
        List.length_nil, hkind, haccount, hname] at hle hfixture ⊢
      omega
    | grafanaManaged account' userId orgId =>
      simp only [RevokeHandle.isValid, Bool.and_eq_true, beq_iff_eq] at hx
      obtain ⟨⟨rfl, -⟩, -⟩ := hx
      have huser := formSize_unsigned_le (k := 10) (by decide)
        (userId.toNat_lt.trans (by decide))
      have horg := formSize_unsigned_le (k := 10) (by decide)
        (orgId.toNat_lt.trans (by decide))
      have huserName : Canon.size (writeString "user_id") = 9 := by decide
      have horgName : Canon.size (writeString "org_id") = 8 := by decide
      have hmanaged : formSize (.string "grafana-managed") = 17 := by decide
      simp only [Option.elim_some, handleValue, formSize, fieldsSize, List.length_cons,
        List.length_nil, hkind, haccount, huserName, horgName] at huser horg hmanaged ⊢
      omega

theorem formSize_state_le (state : SessionState) : formSize (.string state.name) ≤ 19 := by
  cases state <;> decide

theorem formSize_recordValue_le (h : r.isConsistent highWater 4)
    (hhigh : highWater ≤ maxSessionTime) :
    formSize (recordValue r) + 1 ≤ recordBound r.binding := by
  have hmax : maxSessionTime < 10 ^ 16 := by decide
  simp only [SessionRecord.isConsistent, SessionRecord.hasSoundTimes, SessionRecord.hasSoundUnits,
    Bool.and_eq_true, decide_eq_true_eq, Option.all_eq_true] at h
  obtain ⟨⟨⟨⟨⟨-, hcreated⟩, hdeadline⟩, hclosed⟩,
    ⟨⟨⟨⟨⟨-, hhelper⟩, hhelperInvocation⟩, -⟩, hbrowser⟩, hbrowserInvocation⟩⟩, hstate⟩ := h
  have hcreated : formSize (.unsigned r.createdAtMs) ≤ 16 :=
    formSize_unsigned_le (by decide) (by omega)
  have hclosed : formSize (optionalNumber r.closedAtMs) ≤ 16 :=
    formSize_optionalNumber_le fun n hn => by
      have hle := (hclosed n hn).2
      omega
  have hdeadline : formSize (optionalNumber r.originalDeadlineMs) ≤ 16 :=
    formSize_optionalNumber_le fun n hn => by
      have hle := (hdeadline n hn).2
      omega
  have hhelper : formSize (optionalText r.helperUnit) ≤ 402 :=
    formSize_optionalText_le (by decide) fun text htext => formSize_helperUnit_le (hhelper text htext)
  have hhelperInvocation : formSize (optionalText r.helperInvocation) ≤ 34 :=
    formSize_optionalText_le (by decide)
      fun text htext => formSize_invocation_le (hhelperInvocation text htext)
  have hbrowser : formSize (optionalText r.browserUnit) ≤ 202 :=
    formSize_optionalText_le (by decide)
      fun text htext => formSize_sessionUnit_le (hbrowser text htext)
  have hbrowserInvocation : formSize (optionalText r.browserInvocation) ≤ 34 :=
    formSize_optionalText_le (by decide)
      fun text htext => formSize_invocation_le (hbrowserInvocation text htext)
  have hhandle : formSize (r.revokeHandle.elim .null handleValue) ≤
      formSize (.string r.binding.account) + 180 := by
    apply formSize_handle_le
    intro x hx
    simp only [SessionRecord.fitsState, Bool.and_eq_true] at hstate
    by_cases hclosed : r.isClosed
    · simp [hclosed, hx] at hstate
    · simp only [if_neg hclosed, Bool.and_eq_true, Option.all_eq_true] at hstate
      exact hstate.2.1.2 x hx
  have hname := formSize_state_le r.state
  have hkeys : Canon.size (writeString "binding") = 9 ∧
      Canon.size (writeString "state") = 7 ∧
      Canon.size (writeString "created_at_ms") = 15 ∧
      Canon.size (writeString "closed_at_ms") = 14 ∧
      Canon.size (writeString "original_deadline_ms") = 22 ∧
      Canon.size (writeString "revoke_handle") = 15 ∧
      Canon.size (writeString "helper_unit") = 13 ∧
      Canon.size (writeString "helper_invocation") = 19 ∧
      Canon.size (writeString "browser_unit") = 14 ∧
      Canon.size (writeString "browser_invocation") = 20 := by decide
  simp only [recordValue, recordBound, formSize_object, fieldsSize_cons,
    fieldsSize_nil, List.length_cons, List.length_nil]
  omega

/-! ### A table with room is written -/

theorem writable_optionalText (value : Option String) (h : depth ≤ maxDepth) :
    Writable (optionalText value) depth := by
  cases value <;> simpa [optionalText, Writable] using h

theorem writable_optionalNumber (h : depth ≤ maxDepth)
    (hvalue : ∀ n, value = some n → n ≤ maxSafeInteger) :
    Writable (optionalNumber value) depth := by
  cases value with
  | none => simpa [optionalNumber, Writable] using h
  | some n => simpa [optionalNumber, Writable] using ⟨h, hvalue n rfl⟩

theorem writable_handle (handle : Option RevokeHandle) :
    Writable (handle.elim .null handleValue) 3 := by
  rcases handle with _ | ⟨account, reference⟩ | ⟨account, userId, orgId⟩
  · simp [Writable, maxDepth]
  · simp [handleValue, Writable, Canon.WritableFields, maxDepth]
  have huser := userId.toNat_lt
  have horg := orgId.toNat_lt
  simp [handleValue, Writable, Canon.WritableFields, maxDepth, maxSafeInteger]
  omega

theorem writable_recordValue (h : r.isConsistent highWater 4) (hhigh : highWater ≤ maxSessionTime) :
    Writable (recordValue r) 2 := by
  have hmax : maxSessionTime ≤ maxSafeInteger := by decide
  simp only [SessionRecord.isConsistent, SessionRecord.hasSoundTimes, Bool.and_eq_true,
    decide_eq_true_eq, Option.all_eq_true] at h
  obtain ⟨⟨⟨⟨⟨-, hcreated⟩, hdeadline⟩, hclosed⟩, -⟩, -⟩ := h
  have hbinding : Writable (bindingValue r.binding) 3 := by
    have hkey : Writable (optionalText r.binding.requestEventKey) 4 :=
      writable_optionalText _ (by decide)
    simp [bindingValue, Writable, Canon.WritableFields, maxDepth, hkey]
  have htext : ∀ value, Writable (optionalText value) 3 :=
    fun value => writable_optionalText value (by decide)
  have hclosed : Writable (optionalNumber r.closedAtMs) 3 :=
    writable_optionalNumber (by decide) fun n hn => ((hclosed n hn).2.trans hhigh).trans hmax
  have hdeadline : Writable (optionalNumber r.originalDeadlineMs) 3 :=
    writable_optionalNumber (by decide) fun n hn => (hdeadline n hn).2.trans hmax
  have hcreated : r.createdAtMs ≤ maxSafeInteger := (hcreated.trans hhigh).trans hmax
  simp [recordValue, Writable, Canon.WritableFields, maxDepth, htext, writable_handle, hbinding,
    hclosed, hdeadline, hcreated]

namespace SessionSnapshot

variable {s : SessionSnapshot}

theorem Sound.writable (h : s.Sound 4) : Writable s.value 0 := by
  have hmax : maxSessionTime ≤ maxSafeInteger := by decide
  have hitems : Canon.WritableItems (s.values.map recordValue) 2 := by
    rw [Canon.writableItems_iff]
    intro v hv
    obtain ⟨r, hr, rfl⟩ := List.mem_map.mp hv
    obtain ⟨k, hk⟩ := mem_values.mp hr
    exact writable_recordValue (h.consistent k r hk) h.timely
  have htime := h.timely.trans hmax
  simp [value, Writable, Canon.WritableFields, maxDepth, hitems, htime,
    show 4 ≤ maxSafeInteger by decide]

theorem formSize_value_le (h : s.Sound 4) : formSize s.value ≤ tableBound s.records := by
  have hmax : maxSessionTime < 10 ^ 16 := by decide
  have htime : formSize (.unsigned s.timeHighWaterMs) ≤ 16 :=
    formSize_unsigned_le (by decide) (h.timely.trans_lt hmax)
  -- each record with the comma after it fits its bound
  have hitems : itemsSize (s.values.map recordValue) + s.values.length ≤
      Table.total s.records fun _ r => recordBound r.binding := by
    have hlist : ∀ l : List (String × SessionRecord), (∀ e ∈ l, s.records[e.1]? = some e.2) →
        itemsSize ((l.map Prod.snd).map recordValue) + l.length ≤
          (l.map fun e => recordBound e.2.binding).sum := by
      intro l hl
      induction l with
      | nil => decide
      | cons e rest ih =>
        have hrest := ih fun e' he' => hl e' (.tail _ he')
        have he := formSize_recordValue_le (h.consistent _ _ (hl e (.head _))) h.timely
        simp only [List.map_cons, List.sum_cons, List.length_cons, itemsSize]
        omega
    have hle := hlist s.records.toList fun e he =>
      Std.TreeMap.mem_toList_iff_getElem?_eq_some.mp he
    rwa [← List.length_map (f := Prod.snd)] at hle
  have hkeys : Canon.size (writeString "version") = 9 ∧
      Canon.size (writeString "time_high_water_ms") = 20 ∧
      Canon.size (writeString "records") = 9 ∧ formSize (.unsigned 4) = 1 := by decide
  simp only [value, tableBound, formSize_object, Canon.formSize_array, fieldsSize_cons,
    fieldsSize_nil, List.length_cons, List.length_nil, List.length_map]
  omega

theorem body_of_room (h : s.Sound 4) (hroom : tableBound s.records ≤ maxSessionBytes) :
    ∃ bytes, s.body = some bytes := by
  obtain ⟨text, -, hlength, hcanonical⟩ := Canon.canonicalizeValue_of_writable h.writable
  have hle := (formSize_value_le h).trans hroom
  have hlimit : maxSessionBytes = Canon.maxCanonicalJsonBytes := by decide
  rw [← hlimit, if_neg (not_lt.mpr hle)] at hcanonical
  exact ⟨_, body_eq_some.mpr ⟨hcanonical, hlength.trans_le hle⟩⟩

end SessionSnapshot

/-! ### Runs with room -/

/-- The file system does what it is asked. -/
def Reliable : SessionEvent → Prop
  | .openAt io | .request _ io | .tryUnfence io => io = .done
  | .exit | .crash _ => True

/-- Whatever table the step opens, or files a new record in, has room for the longest form of all
its records. -/
def HasRoom
    (t : Execution.Transition SessionHost SessionEvent (Option (Except String SessionReply))) : Prop :=
  match t.before, t.event with
  | .stopped file, .openAt _ => ∀ j changed, SessionJournal.loaded file = .ok (j, changed) →
      tableBound j.records ≤ maxSessionBytes
  | .running j, .request (.reserve binding _) _ => j.records[binding.operationId]? = none →
      j.records.size < maxSessionRecords →
      (∀ (k : String) (r : SessionRecord), j.records[k]? = some r → r.blocks binding = false) →
      tableBound j.records + recordBound binding ≤ maxSessionBytes
  | _, _ => True

/-- A running journal is sound, has room and is not fenced. -/
def SessionHost.Roomy (s : SessionHost) : Prop :=
  ∀ j, s = .running j → j.snapshot.Sound 4 ∧ tableBound j.records ≤ maxSessionBytes ∧
    j.fenced = false

namespace SessionJournal

variable {j j' : SessionJournal}

/-- A table with room is written if the file system does what it is asked. -/
theorem persist_of_room (hs : j.snapshot.Sound 4) (hroom : tableBound j.records ≤ maxSessionBytes) :
    ∃ j', j.persist .done = (j', .ok ()) ∧ j'.snapshot = j.snapshot ∧ j'.fenced = j.fenced := by
  obtain ⟨bytes, hbody⟩ := SessionSnapshot.body_of_room hs hroom
  have hwrite : j.writeSnapshot .done = ({ j with
      file := (j.file.write (some bytes)).sync
      persistedHighWaterMs := j.timeHighWaterMs }, .ok ()) := by
    rw [writeSnapshot, hbody]
  exact ⟨_, persist_eq_ok.mpr hwrite, rfl, rfl⟩

theorem tableBound_put {operation : String} {r' : SessionRecord} {now : ℕ}
    (hr : j.records[operation]? = some r) (hbinding : r'.binding = r.binding) :
    tableBound (j.put operation r' now).records = tableBound j.records := by
  have hreplace := Table.total_replace (r := r') (f := fun _ r => recordBound r.binding) hr
  simp only [hbinding] at hreplace
  simp only [tableBound, put]
  omega

/-- No request makes the table longer than its bound, but one that files a record. -/
theorem Effect.tableBound_le (h : j.Effect request j')
    (hroom : tableBound j.records ≤ maxSessionBytes)
    (hreserve : ∀ binding time, request = .reserve binding time →
      j.records[binding.operationId]? = none → j.records.size < maxSessionRecords →
      (∀ (k : String) (r : SessionRecord), j.records[k]? = some r → r.blocks binding = false) →
      tableBound j.records + recordBound binding ≤ maxSessionBytes) :
    tableBound j'.records ≤ maxSessionBytes := by
  cases h with
  | still | touch => exact hroom
  | @reserve binding _ now _ _ hnone hsize hblocks =>
    have hle := hreserve _ _ rfl hnone hsize hblocks
    have htotal := Table.total_insert (r := SessionRecord.reserve binding now)
      (f := fun _ r => recordBound r.binding) hnone
    simp only [tableBound, put] at hle ⊢
    rw [htotal]
    simp only [SessionRecord.reserve]
    omega
  | advance _ hr hadvance =>
    rw [tableBound_put hr hadvance.binding_eq]
    exact hroom
  | close _ hr =>
    rw [tableBound_put hr (SessionRecord.close_binding _ _)]
    exact hroom
  | @release _ now =>
    have htotal : Table.total (Table.updateWhere j.records (fun _ r => isDue now r)
        fun r => r.close now) (fun _ r => recordBound r.binding) =
        Table.total j.records fun _ r => recordBound r.binding :=
      Table.total_updateWhere fun _ _ _ => rfl
    simp only [tableBound] at hroom ⊢
    rwa [htotal]
  | prune =>
    exact (Nat.add_le_add_left Table.total_filter_le 64).trans hroom

/-- With room, a request does not fence the journal. -/
theorem fenced_commit (hs : j.snapshot.Sound 4)
    (hroom : ∀ j', j.Effect request j' → tableBound j'.records ≤ maxSessionBytes) :
    (j.commit (j.planned request) .done).1.fenced = j.fenced := by
  cases hplan : j.planned request with
  | error => rfl
  | ok move =>
    have heffect := (effect_of_planned hplan).1
    cases move with
    | answer => exact heffect.fenced_eq
    | write =>
      obtain ⟨j'', hpersist, -, hkept⟩ := persist_of_room (heffect.sound hs) (hroom _ heffect)
      simp only [commit, SessionMove.journal] at hpersist ⊢
      rw [hpersist]
      exact hkept.trans heffect.fenced_eq

end SessionJournal

theorem unfenced_of_loaded {file : Storage.Durable (Option (List UInt8))} {j : SessionJournal}
    {changed : Bool} (h : SessionJournal.loaded file = .ok (j, changed)) : j.fenced = false := by
  rw [SessionJournal.loaded] at h
  cases hfile : file.visible with
  | none =>
    simp only [hfile] at h
    rw [← (Prod.mk.inj (Except.ok.inj h)).1]
  | some =>
    simp only [hfile] at h
    split at h
    · cases h
    split at h
    · cases h
    rw [← (Prod.mk.inj (Except.ok.inj h)).1]

/-- The only table a request changes has room, if the step has. -/
theorem room_of_effect {j : SessionJournal} {io : DiskWrite}
    (h : tableBound j.records ≤ maxSessionBytes)
    (hroom : HasRoom (sessions.transition (.running j) (.request request io))) :
    ∀ j', j.Effect request j' → tableBound j'.records ≤ maxSessionBytes := by
  intro j' heffect
  apply heffect.tableBound_le h
  rintro binding time rfl
  exact hroom

theorem roomy_step {s : SessionHost} {event : SessionEvent} (h : s.Roomy)
    (hreliable : Reliable event) (hroom : HasRoom (sessions.transition s event)) :
    (sessions.step s event).1.Roomy := by
  intro j hj
  cases s with
  | stopped file =>
    cases event with
    | openAt io =>
      obtain rfl : io = .done := hreliable
      have hj : (SessionHost.step (.stopped file) (.openAt .done)).1 = .running j := hj
      simp only [SessionHost.step] at hj
      rcases openAt_cases file .done with ⟨e, ho⟩ | ⟨j₀, changed, hload, ho⟩
      · rw [ho] at hj
        cases hj
      have hsound := sound_of_loaded hload
      have hle : tableBound j₀.records ≤ maxSessionBytes := hroom j₀ changed hload
      have hunfenced := unfenced_of_loaded hload
      rcases ho with ⟨-, ho⟩ | ⟨j', e, -, ho⟩ | ⟨j', hp, ho⟩ <;> rw [ho] at hj
      · obtain rfl := SessionHost.running.inj hj
        exact ⟨hsound, hle, hunfenced⟩
      · cases hj
      obtain rfl := SessionHost.running.inj hj
      obtain ⟨j'', hpersist, hsame, hkept⟩ := SessionJournal.persist_of_room hsound hle
      obtain ⟨rfl, -⟩ := Prod.mk.inj (hp.symm.trans hpersist)
      have hrecords : j'.records = j₀.records := congrArg SessionSnapshot.records hsame
      exact ⟨hsame ▸ hsound, hrecords ▸ hle, hkept.trans hunfenced⟩
    | _ => cases hj
  | running j₀ =>
    obtain ⟨hsound, hle, hunfenced⟩ := h j₀ rfl
    cases event with
    | request request io =>
      obtain rfl : io = .done := hreliable
      obtain rfl := SessionHost.running.inj hj
      have hroom := room_of_effect hle hroom
      obtain ⟨j', heffect, hwritten⟩ := SessionJournal.commit_spec j₀ request .done
      refine ⟨?_, ?_, (SessionJournal.fenced_commit hsound hroom).trans hunfenced⟩
      · rw [hwritten.snapshot_eq]
        exact heffect.sound hsound
      · rw [hwritten.records_eq]
        exact hroom j' heffect
    | tryUnfence io =>
      obtain rfl := SessionHost.running.inj hj
      have hsame : (j₀.tryUnfence io).1 = j₀ := by simp [SessionJournal.tryUnfence, hunfenced]
      rw [hsame]
      exact ⟨hsound, hle, hunfenced⟩
    | openAt =>
      obtain rfl := SessionHost.running.inj hj
      exact ⟨hsound, hle, hunfenced⟩
    | exit | crash => cases hj

theorem roomy_of_run {run : List (Execution.Transition _ _ _)} {s : SessionHost}
    (h : sessions.Run run s) (hsteps : ∀ t ∈ run, Reliable t.event ∧ HasRoom t) : s.Roomy := by
  apply h.invariant_of (P := SessionHost.Roomy) (Q := fun t => Reliable t.event ∧ HasRoom t) _ _ hsteps
  · rintro s ⟨left, rfl⟩
    nofun
  · intro s event hs _ hstep
    exact roomy_step hs hstep.1 hstep.2

/-- With room, a reservation that is refused is refused before anything changes. -/
theorem commit_reserve_refused {j : SessionJournal} {binding : SessionBinding} {time : ℕ}
    {reason : String} (hs : j.snapshot.Sound 4)
    (hroom : ∀ j', j.Effect (.reserve binding time) j' → tableBound j'.records ≤ maxSessionBytes)
    (h : (j.commit (j.planned (.reserve binding time)) .done).2 = .error reason) :
    (j.commit (j.planned (.reserve binding time)) .done).1 = j := by
  cases hmove : j.reserving binding time with
  | error => simp [SessionJournal.planned, hmove, Except.map, SessionJournal.commit]
  | ok move =>
    have hplan : j.planned (.reserve binding time) = .ok (move.map .reserved) := by
      simp [SessionJournal.planned, hmove, Except.map]
    have heffect := (SessionJournal.effect_of_reserving hmove).1
    rw [hplan] at h
    cases move with
    | answer => cases h
    | write =>
      -- the write succeeds, and what is written is never answered with an error
      obtain ⟨j'', hpersist, -⟩ := SessionJournal.persist_of_room (heffect.sound hs)
        (hroom _ heffect)
      simp only [SessionMove.map, SessionMove.journal, SessionJournal.commit] at h hpersist
      rw [hpersist] at h
      rcases SessionJournal.reserving_cases hmove with ⟨_, hm⟩ | ⟨_, _, -, hm⟩ | ⟨_, _, _, _, _, _, hm⟩
      · cases hm
      all_goals
        obtain ⟨-, rfl⟩ := SessionMove.write.inj hm
        cases h

/-- In a run in which the file system does what it is asked and every table that is opened or grows
has room, the journal is never fenced, and a reservation that is refused changes nothing. -/
theorem unfenced_of_hasRoom {run : List (Execution.Transition _ _ _)} {s : SessionHost}
    (h : sessions.Run run s) (hreliable : ∀ t ∈ run, Reliable t.event)
    (hroom : ∀ t ∈ run, HasRoom t) : (∀ j, s = .running j → j.fenced = false) ∧
    ∀ t ∈ run, ∀ binding time io reason, t.event = .request (.reserve binding time) io →
      t.output = some (.error reason) → t.after = t.before := by
  have hsteps : ∀ t ∈ run, Reliable t.event ∧ HasRoom t := fun t ht => ⟨hreliable t ht, hroom t ht⟩
  refine ⟨fun j hj => (roomy_of_run h hsteps j hj).2.2, ?_⟩
  intro t ht binding time io reason hevent houtput
  obtain ⟨before, after, rfl⟩ := List.append_of_mem ht
  obtain ⟨hrun, -, heq⟩ := h.split
  have hprior := roomy_of_run hrun fun u hu => hsteps u (List.mem_append_left _ hu)
  have hstep := hsteps t ht
  rw [heq] at houtput hstep ⊢
  cases hbefore : t.before with
  | stopped =>
    rw [hbefore, hevent] at houtput
    cases houtput
  | running j =>
    obtain ⟨hsound, hle, hunfenced⟩ := hprior j hbefore
    rw [hbefore, hevent] at houtput hstep
    obtain rfl : io = .done := hstep.1
    have hrefused := commit_reserve_refused hsound (room_of_effect hle hstep.2)
      (Option.some.inj houtput)
    show (sessions.step (.running j) t.event).1 = .running j
    rw [hevent]
    exact congrArg SessionHost.running hrefused

/-- The sample run has room. -/
theorem unfenced_of_hasRoom_reserved : ∃ run,
    sessions.Run run afterReservation ∧ (∀ t ∈ run, Reliable t.event) ∧ (∀ t ∈ run, HasRoom t) ∧
    ∀ j, afterReservation = .running j → j.fenced = false := by
  let opened := (sessions.step (.stopped (.settled none)) (.openAt .done)).1
  let first := sessions.transition (.stopped (.settled none)) (.openAt .done)
  let second := sessions.transition opened (.request (.reserve sampleSession 1000) .done)
  have hreliable : ∀ t ∈ [first, second], Reliable t.event := by
    intro t ht
    rcases List.mem_pair.mp ht with rfl | rfl <;> exact rfl
  obtain ⟨j, hj, hopened⟩ : ∃ j ∈ opened.journal?,
    tableBound j.records + recordBound sampleSession ≤ maxSessionBytes := by decide +kernel
  have hroom : ∀ t ∈ [first, second], HasRoom t := by
    intro t ht
    rcases List.mem_pair.mp ht with rfl | rfl
    · intro j changed hload
      cases hload
      decide +kernel
    · simp only [second, HasRoom, Execution.Machine.transition, SessionHost.journal?_eq_some.mp hj]
      exact fun _ _ _ => hopened
  exact ⟨[first, second], run_reservedSession, hreliable, hroom,
    (unfenced_of_hasRoom run_reservedSession hreliable hroom).1⟩

/-! ### A journal that fences itself

Reservations with identifiers of full length, each of another account, fill the document before
they fill the table. -/

/-- Four decimals of a number. -/
def decimals (n : ℕ) : List Char :=
  [n / 1000 % 10, n / 100 % 10, n / 10 % 10, n % 10].map fun d => Char.ofNat (48 + d)

/-- An identifier of full length. -/
def longId (n : ℕ) : String := String.ofList (List.replicate 124 'a' ++ decimals n)

/-- A unit of full length. -/
def longUnit (n : ℕ) : String :=
  String.ofList ((List.replicate 188 'a' ++ decimals n) ++ ".service".toList)

/-- An invocation, for the bindings below. -/
def longInvocation : String := "0123456789abcdef0123456789abcdef"

/-- A fingerprint, for the bindings below. -/
def longFingerprint : String := "0123456789abcdef0123456789abcdef0123456789abcdef0123456789abcdef"

/-- A binding with identifiers of full length. -/
def longSession (n : ℕ) : SessionBinding where
  nodeId := longId n
  workloadId := longId n
  operationId := longId n
  idempotencyKey := longId n
  requestEventKey := some (longId n)
  workloadUnit := longUnit n
  workloadInvocation := longInvocation
  resource := longId n
  recipeFingerprint := longFingerprint
  account := longId n

theorem length_decimals (n : ℕ) : (decimals n).length = 4 := rfl

theorem isAlphanum_of_mem_decimals (h : c ∈ decimals n) : c.isAlphanum := by
  have hdigit : ∀ d < 10, (Char.ofNat (48 + d)).isAlphanum = true := by decide
  obtain ⟨d, hd, rfl⟩ := List.mem_map.mp h
  apply hdigit
  simp only [List.mem_cons, List.not_mem_nil, or_false] at hd
  omega

theorem isAlphanum_of_mem_pad {pad : ℕ} (h : c ∈ List.replicate pad 'a' ++ decimals n) :
    c.isAlphanum := by
  rcases List.mem_append.mp h with ha | hd
  · rw [List.eq_of_mem_replicate ha]
    rfl
  · exact isAlphanum_of_mem_decimals hd

theorem utf8ByteSize_ofList (h : ∀ c ∈ chars, IsPlain c) :
    (String.ofList chars).utf8ByteSize = chars.length := by
  rw [Utf8.utf8ByteSize_eq, String.toList_ofList]
  exact Utf8.length_encode_of_isAscii fun c hc => (h c hc).2.2.2

theorem utf8ByteSize_longId (n : ℕ) : (longId n).utf8ByteSize = 128 := by
  rw [longId, utf8ByteSize_ofList fun c hc => isPlain_of_isAlphanum (isAlphanum_of_mem_pad hc)]
  simp [length_decimals]

theorem validSessionId_longId (n : ℕ) : validSessionId (longId n) := by
  have hsize := utf8ByteSize_longId n
  have hempty : (longId n).isEmpty = false := by
    rw [String.isEmpty_eq_false_iff]
    intro h
    rw [h] at hsize
    cases hsize
  simp only [validSessionId, hempty, hsize, Bool.and_eq_true, List.all_eq_true]
  refine ⟨by decide, fun c hc => ?_⟩
  rw [longId, String.toList_ofList] at hc
  simp [isAlphanum_of_mem_pad hc]

theorem isValidEventKey_longId (n : ℕ) : Fleet.isValidEventKey (longId n) := by
  simp only [Fleet.isValidEventKey, utf8ByteSize_longId, Bool.and_eq_true, List.all_eq_true]
  refine ⟨by decide, fun c hc => ?_⟩
  rw [longId, String.toList_ofList] at hc
  simp [isAlphanum_of_mem_pad hc]

theorem toList_longUnit (n : ℕ) :
    (longUnit n).toList = (List.replicate 188 'a' ++ decimals n) ++ ".service".toList :=
  String.toList_ofList

theorem utf8ByteSize_longUnit (n : ℕ) : (longUnit n).utf8ByteSize = 200 := by
  have hservice : ∀ c ∈ ".service".toList, IsPlain c := by decide
  have hplain : ∀ c ∈ (List.replicate 188 'a' ++ decimals n) ++ ".service".toList, IsPlain c := by
    intro c hc
    rcases List.mem_append.mp hc with hpad | hc
    · exact isPlain_of_isAlphanum (isAlphanum_of_mem_pad hpad)
    · exact hservice c hc
  have hlength : ".service".toList.length = 8 := by decide
  rw [longUnit, utf8ByteSize_ofList hplain, List.length_append, List.length_append,
    List.length_replicate, length_decimals, hlength]

/-- Before the last dot no two dots stand side by side. -/
theorem not_doubleDot_append (h : ∀ c ∈ chars, c ≠ '.') :
    ((chars ++ ".service".toList).zip (chars ++ ".service".toList).tail).any
      (fun pair => pair.1 == '.' && pair.2 == '.') = false := by
  induction chars with
  | nil => decide
  | cons c rest ih =>
    have hrest := ih fun c' hc' => h c' (.tail _ hc')
    have hc : c ≠ '.' := h c (.head _)
    rw [List.cons_append, List.tail_cons]
    cases hnext : rest ++ ".service".toList with
    | nil => simp
    | cons =>
      rw [hnext] at hrest
      rw [List.zip_cons_cons, List.any_cons, Bool.or_eq_false_iff]
      exact ⟨by simp [hc], hrest⟩

theorem validSessionUnit_longUnit (n : ℕ) : validSessionUnit (longUnit n) := by
  have hsize := utf8ByteSize_longUnit n
  have hempty : (longUnit n).isEmpty = false := by
    rw [String.isEmpty_eq_false_iff]
    intro h
    rw [h] at hsize
    cases hsize
  have hdots : hasDoubleDot (longUnit n) = false := by
    rw [hasDoubleDot, toList_longUnit]
    apply not_doubleDot_append
    rintro c hc rfl
    exact absurd (isAlphanum_of_mem_pad hc) (by decide)
  have hsuffix : ".service".toList.isSuffixOf (longUnit n).toList = true := by
    rw [toList_longUnit, List.isSuffixOf_iff_suffix]
    exact List.suffix_append _ _
  have hservice : ∀ c ∈ ".service".toList, (c.isAlphanum || c == '-' || c == '_' || c == ':' ||
      c == '.' || c == '@') = true := by decide
  simp only [validSessionUnit, hempty, hsize, hdots, hsuffix, Bool.and_eq_true, List.all_eq_true]
  refine ⟨by decide, fun c hc => ?_⟩
  rw [toList_longUnit] at hc
  rcases List.mem_append.mp hc with hpad | hc
  · simp [isAlphanum_of_mem_pad hpad]
  · exact hservice c hc

theorem isValid_longSession (n : ℕ) : (longSession n).isValid := by
  have hfingerprint : (longFingerprint.utf8ByteSize == 64) = true := by decide
  have hhex : longFingerprint.toList.all isLowerHex = true := by decide
  have hinvocation : validInvocation longInvocation = true := by decide
  simp only [SessionBinding.isValid, longSession, validSessionId_longId, validSessionUnit_longUnit,
    Option.all_some, isValidEventKey_longId, hfingerprint, hhex, hinvocation, Bool.and_true]

theorem decimals_inj (hn : n < 10000) (hm : m < 10000) (h : decimals n = decimals m) : n = m := by
  have hdigit : ∀ d < 10, ∀ e < 10, Char.ofNat (48 + d) = Char.ofNat (48 + e) → d = e := by decide
  simp only [decimals, List.map_cons, List.map_nil, List.cons.injEq, and_true] at h
  have h3 := hdigit _ (Nat.mod_lt _ (by decide)) _ (Nat.mod_lt _ (by decide)) h.1
  have h2 := hdigit _ (Nat.mod_lt _ (by decide)) _ (Nat.mod_lt _ (by decide)) h.2.1
  have h1 := hdigit _ (Nat.mod_lt _ (by decide)) _ (Nat.mod_lt _ (by decide)) h.2.2.1
  have h0 := hdigit _ (Nat.mod_lt _ (by decide)) _ (Nat.mod_lt _ (by decide)) h.2.2.2
  omega

theorem longId_inj (hn : n < 10000) (hm : m < 10000) (h : longId n = longId m) : n = m := by
  have hlist := String.ofList_injective h
  exact decimals_inj hn hm (List.append_cancel_left hlist)

theorem longUnit_inj (hn : n < 10000) (hm : m < 10000) (h : longUnit n = longUnit m) : n = m := by
  have hlist := String.ofList_injective h
  exact decimals_inj hn hm (List.append_cancel_left (List.append_cancel_right hlist))

/-- A journal that holds the first `n` of these reservations, all of them written. -/
structure Filled (n : ℕ) (j : SessionJournal) : Prop where
  sound : j.snapshot.Sound 4
  unfenced : j.fenced = false
  time : j.timeHighWaterMs ≤ 1000
  size : j.records.size = n
  records : ∀ (k : String) (r : SessionRecord), j.records[k]? = some r →
    ∃ i < n, r.binding = longSession i
  written : ∃ bytes, j.snapshot.body = some bytes

theorem le_formSize_recordValue (h : r.binding = longSession n) :
    1025 ≤ formSize (recordValue r) := by
  have hid := Canon.le_formSize_string (longId n)
  have hunit := Canon.le_formSize_string (longUnit n)
  rw [utf8ByteSize_longId] at hid
  rw [utf8ByteSize_longUnit] at hunit
  have hbinding : 1025 ≤ formSize (bindingValue (longSession n)) := by
    simp only [bindingValue, longSession, optionalText, Option.elim_some, formSize_object,
      fieldsSize_cons, fieldsSize_nil, List.length_cons, List.length_nil]
    omega
  simp only [recordValue, h, formSize_object, fieldsSize_cons]
  omega

/-- A full table of these reservations would not have been written. -/
theorem not_filled (j : SessionJournal) : ¬ Filled 1024 j := by
  intro h
  obtain ⟨bytes, hbody⟩ := h.written
  obtain ⟨hcanonical, hle⟩ := SessionSnapshot.body_eq_some.mp hbody
  rw [Canon.length_of_canonicalizeValue hcanonical] at hle
  have hlist : ∀ l : List SessionRecord, (∀ r ∈ l, 1025 ≤ formSize (recordValue r)) →
      1025 * l.length ≤ itemsSize (l.map recordValue) := by
    intro l hl
    induction l with
    | nil => exact zero_le
    | cons r rest ih =>
      have hrest := ih fun r' hr' => hl r' (.tail _ hr')
      have hr := hl r (.head _)
      simp only [List.map_cons, List.length_cons, itemsSize]
      omega
  have hitems := hlist j.snapshot.values fun r hr => by
    obtain ⟨k, hk⟩ := SessionSnapshot.mem_values.mp hr
    obtain ⟨i, -, hi⟩ := h.records k r hk
    exact le_formSize_recordValue hi
  have hlength : j.snapshot.values.length = 1024 := by
    rw [SessionSnapshot.values, List.length_map, Std.TreeMap.length_toList]
    exact h.size
  rw [hlength] at hitems
  simp only [SessionSnapshot.value, formSize_object, Canon.formSize_array,
    fieldsSize_cons, maxSessionBytes] at hle
  omega

theorem Filled.not_filed {j : SessionJournal} (h : Filled n j) (hn : n < 1024) :
    j.records[longId n]? = none := by
  cases hr : j.records[longId n]? with
  | none => rfl
  | some r =>
    obtain ⟨i, hi, hbinding⟩ := h.records _ _ hr
    have hfiled : longId n = r.binding.operationId := h.sound.filed _ _ hr
    rw [hbinding] at hfiled
    exact absurd (longId_inj (by omega) (by omega) hfiled) (by omega)

/-- The next reservation finds nothing in its way. -/
theorem reserving_longSession {j : SessionJournal} (h : Filled n j) (hn : n < 1024) :
    j.reserving (longSession n) 1000 =
      .ok (.write (j.put (longId n) (.reserve (longSession n) 1000) 1000) (.ok .new)) := by
  have htime : j.effectiveTime 1000 = .ok 1000 := by
    have hmax : ¬ maxSessionTime < 1000 := by decide
    simp [SessionJournal.effectiveTime, h.unfenced, h.time, hmax]
  have hblocks : j.records.toList.any (fun e => e.2.blocks (longSession n)) = false := by
    rw [List.any_eq_false]
    intro e he
    obtain ⟨i, hi, hbinding⟩ := h.records _ _ (Std.TreeMap.mem_toList_iff_getElem?_eq_some.mp he)
    have hid : longId i ≠ longId n := fun heq =>
      absurd (longId_inj (by omega) (by omega) heq) (by omega)
    have hunit : longUnit i ≠ longUnit n := fun heq =>
      absurd (longUnit_inj (by omega) (by omega) heq) (by omega)
    simp [SessionRecord.blocks, hbinding, longSession, hid, hunit]
  have hnone := h.not_filed hn
  have hsize : j.records.size < maxSessionRecords := h.size.trans_lt hn
  have hoperation : (longSession n).operationId = longId n := rfl
  simp only [SessionJournal.reserving, htime, hoperation, hnone, hblocks, isValid_longSession,
    SessionJournal.require, hsize]
  rfl

/-- The next reservation is filed and written, or it is filed and fences the journal. -/
theorem filled_step {j j' : SessionJournal} (h : Filled n j) (hn : n < 1024)
    (hj' : (j.commit (j.planned (.reserve (longSession n) 1000)) .done).1 = j') : Filled (n + 1) j' ∨
      j'.fenced = true ∧ j'.snapshot.body = none ∧ j'.records.size = n + 1 := by
  subst hj'
  let next := j.put (longId n) (.reserve (longSession n) 1000) 1000
  have hreserving := reserving_longSession h hn
  have hplan : j.planned (.reserve (longSession n) 1000) =
      .ok (.write next (.ok (.reserved .new))) := by
    simp [SessionJournal.planned, hreserving, Except.map, SessionMove.map, next]
  have hsound : next.snapshot.Sound 4 :=
    (SessionJournal.effect_of_reserving hreserving).1.sound h.sound
  have hsize : next.records.size = n + 1 := by
    have hmem : j.records.contains (longId n) = false := by
      rw [Std.TreeMap.contains_eq_isSome_getElem?, h.not_filed hn]
      rfl
    show (j.records.insert _ _).size = n + 1
    rw [Std.TreeMap.size_insert, hmem, h.size]
    rfl
  have hrecords : ∀ (k : String) (r : SessionRecord), next.records[k]? = some r →
      ∃ i < n + 1, r.binding = longSession i := by
    intro k r hr
    have hr : (j.records.insert (longId n) (.reserve (longSession n) 1000))[k]? = some r := hr
    rw [Table.getElem?_insert] at hr
    by_cases hk : k = longId n
    · rw [if_pos hk] at hr
      exact ⟨n, n.lt_succ_self, by rw [← Option.some.inj hr]; rfl⟩
    · rw [if_neg hk] at hr
      obtain ⟨i, hi, hbinding⟩ := h.records k r hr
      exact ⟨i, by omega, hbinding⟩
  have hcommit : (j.commit (j.planned (.reserve (longSession n) 1000)) .done).1 =
      (next.persist .done).1 := by
    rw [hplan, SessionJournal.commit]
    rcases next.persist .done with ⟨j', e | ⟨⟩⟩ <;> rfl
  rw [hcommit]
  cases hbody : next.snapshot.body with
  | none =>
    -- the document is too large, which only the write finds out
    have hpersist : next.persist .done = ({ next with fenced := true }, .error sessionFailure) := by
      rw [SessionJournal.persist, SessionJournal.writeSnapshot, hbody]
    rw [hpersist]
    exact .inr ⟨rfl, hbody, hsize⟩
  | some bytes =>
    have hpersist : next.persist .done = ({ next with
        file := (next.file.write (some bytes)).sync
        persistedHighWaterMs := next.timeHighWaterMs }, .ok ()) := by
      rw [SessionJournal.persist, SessionJournal.writeSnapshot, hbody]
    rw [hpersist]
    exact .inl ⟨hsound, h.unfenced, le_rfl, hsize, hrecords, bytes, hbody⟩

/-- Open a journal and make the first `n` reservations. -/
def fillEvents (n : ℕ) : List SessionEvent :=
  .openAt .done :: (List.range n).map fun i => .request (.reserve (longSession i) 1000) .done

/-- The host after that, from no file. -/
def filledHost (n : ℕ) : SessionHost := (sessions.play (.stopped (.settled none)) (fillEvents n)).2

theorem filledHost_succ (n : ℕ) : filledHost (n + 1) =
    (sessions.step (filledHost n) (.request (.reserve (longSession n) 1000) .done)).1 := by
  have hevents : fillEvents (n + 1) =
      fillEvents n ++ [.request (.reserve (longSession n) 1000) .done] := by
    simp [fillEvents, List.range_succ]
  rw [filledHost, hevents, Execution.Machine.play_append]
  rfl

theorem filledHost_zero : ∃ j, filledHost 0 = .running j ∧ Filled 0 j := by
  let start : SessionJournal := ⟨.settled none, ∅, 0, 0, false⟩
  have hload : SessionJournal.loaded (.settled none) = .ok (start, true) := rfl
  have hsound := sound_of_loaded hload
  obtain ⟨j, hpersist, hsame, hkept⟩ := SessionJournal.persist_of_room hsound (by decide +kernel)
  obtain ⟨bytes, hbody⟩ := SessionSnapshot.body_of_room hsound (by decide +kernel)
  have hrecords : j.records = ∅ := congrArg SessionSnapshot.records hsame
  have htime : j.timeHighWaterMs = 0 := congrArg SessionSnapshot.timeHighWaterMs hsame
  refine ⟨j, ?_, hsame ▸ hsound, hkept, ?_, ?_, ?_, bytes, hsame ▸ hbody⟩
  · show (SessionHost.step (.stopped (.settled none)) (.openAt .done)).1 = .running j
    simp only [SessionHost.step, SessionJournal.openAt, hload, hpersist, if_true]
  · rw [htime]
    decide
  · rw [hrecords]
    rfl
  · intro k r hr
    rw [hrecords] at hr
    simp at hr

/-- The journal is filled, or it was fenced on the way. -/
theorem filledHost_cases (hn : n ≤ 1024) : (∃ j, filledHost n = .running j ∧ Filled n j) ∨
    ∃ m j, filledHost m = .running j ∧ j.fenced = true ∧ j.snapshot.body = none ∧
      j.records.size ≤ maxSessionRecords := by
  induction n with
  | zero => exact .inl filledHost_zero
  | succ n ih =>
    rcases ih (by omega) with ⟨j, hj, hfilled⟩ | hfenced
    · have hnext := filledHost_succ n
      rw [hj] at hnext
      rcases filled_step hfilled (by omega) rfl with hfilled' | ⟨hfenced, hbody, hsize⟩
      · exact .inl ⟨_, hnext, hfilled'⟩
      · exact .inr ⟨n + 1, _, hnext, hfenced, hbody, hsize.trans_le hn⟩
    · exact .inr hfenced

/-- Valid reservations on a file system that never fails fence the journal, and it stays fenced. -/
theorem sessions_fence : ∃ events j,
    (∀ event ∈ events, event = .openAt .done ∨ ∃ binding : SessionBinding, binding.isValid ∧
      event = .request (.reserve binding 1000) .done) ∧
    (sessions.play (.stopped (.settled none)) events).2 = .running j ∧ j.fenced = true ∧
    j.records.size ≤ maxSessionRecords ∧ ∀ io, (j.tryUnfence io).2 = false := by
  rcases filledHost_cases (le_refl 1024) with ⟨j, -, hfilled⟩ | ⟨m, j, hj, hfenced, hbody, hsize⟩
  · exact absurd hfilled (not_filled j)
  refine ⟨fillEvents m, j, ?_, hj, hfenced, hsize, ?_⟩
  · intro event hevent
    rcases List.mem_cons.mp hevent with rfl | hevent
    · exact .inl rfl
    · obtain ⟨i, -, rfl⟩ := List.mem_map.mp hevent
      exact .inr ⟨longSession i, isValid_longSession i, rfl⟩
  · intro io
    simp [SessionJournal.tryUnfence, hfenced, SessionJournal.writeSnapshot, hbody]

end BlindPass.Broker
