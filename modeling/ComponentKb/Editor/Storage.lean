import ComponentKb.Lib.Eviction
import ComponentKb.Lib.JsonText
import ComponentKb.Lib.Runs

/-!
# The recovery drafts in the browser

`readRecovery`, `writeRecovery`, `removeRecovery` and `clearEditorRecovery` (`editor/recovery.ts`)
over a `localStorage` that the tabs of the editor share. The order in which the browser enumerates
the keys, whether it accepts an item and the time are inputs of each call. Numbers are integers.
-/

namespace ComponentKb.Editor.Storage

open ComponentKb.Lib ComponentKb.Lib.Eviction ComponentKb.Lib.JsonText ComponentKb.Lib.Records

/-! ## Drafts -/

/-- `RECOVERY_PREFIX`. -/
def recoveryPrefix : String := "ackb:editor:v1:"

def maxBytes : Nat := 512000
def maxEntries : Nat := 8

/-- `TTL`: a week, in milliseconds. -/
def ttl : Int := 7 * 24 * 60 * 60 * 1000

/-- `Recovery`, but for its version. A member may be undefined. -/
structure Draft where
  savedAt : Int
  token : Option Int
  creationKey : String
  componentId : Option (Option String)
  state : Option Json

/-- The draft as an object. -/
def Draft.fields (draft : Draft) : Record :=
  [("version", .int 1), ("savedAt", .int draft.savedAt),
   ("token", match draft.token with | none => .null | some token => .int token),
   ("creationKey", .str draft.creationKey)] ++
    (draft.componentId.map fun id => ("componentId", Json.ofOption id)).toList ++
    (draft.state.map fun state => ("state", state)).toList

/-- `JSON.stringify(value)`. -/
def Draft.text (draft : Draft) : String := String.ofList (dumps (.dict draft.fields))

/-- `text.length`: the number of UTF-16 units. -/
def textLength (text : String) : Nat := (text.toList.map fun c => if c.toNat < 65536 then 1 else 2).sum

/-- The last member of a name; an object keeps only that. -/
def member (fields : Record) (name : String) : Option Json := get fields.reverse name

/-- `/^[0-9a-f-]{36}$/i`. -/
def isCreationKey (value : String) : Bool :=
  value.length == 36 && value.toList.all fun c =>
    c.isDigit || ('a' ≤ c && c ≤ 'f') || ('A' ≤ c && c ≤ 'F') || c = '-'

def maxSafeInteger : Int := 2 ^ 53 - 1

/-- `record.savedAt`, when it is a number. -/
def savedAtIn (fields : Record) : Option Int :=
  match member fields "savedAt" with
  | some (.int n) => some n
  | _ => none

/-- `record.token`, when it is `null` or a token. -/
def tokenIn (fields : Record) : Option (Option Int) :=
  match member fields "token" with
  | some .null => some none
  | some (.int n) => if 1 ≤ n ∧ n ≤ maxSafeInteger then some (some n) else none
  | _ => none

/-- `record.componentId`, when it is undefined, `null` or a string. -/
def componentIdIn (fields : Record) : Option (Option (Option String)) :=
  match member fields "componentId" with
  | none => some none
  | some .null => some (some none)
  | some (.str id) => some (some (some id))
  | _ => none

/-- `record.creationKey`, when it has the form of a key. -/
def creationKeyIn (fields : Record) : Option String :=
  match member fields "creationKey" with
  | some (.str key) => if isCreationKey key then some key else none
  | _ => none

/-- The checks of `readRecovery` on an object. -/
def draftOf (now : Int) (validate : Option Json → Bool) (fields : Record) : Option Draft := do
  let .int 1 ← member fields "version" | none
  let savedAt ← savedAtIn fields
  if now + 60000 < savedAt ∨ ttl < now - savedAt then none
  let creationKey ← creationKeyIn fields
  let componentId ← componentIdIn fields
  let token ← tokenIn fields
  if validate (member fields "state") = true then
    some ⟨savedAt, token, creationKey, componentId, member fields "state"⟩
  else none

/-! ## Calls -/

/-- `localStorage`. -/
abbrev LocalStorage := Store String String

/-- `key.startsWith(RECOVERY_PREFIX)`. -/
def isDraftKey (key : String) : Bool := recoveryPrefix.toList.isPrefixOf key.toList

/-- `JSON.parse(text)`, when it is an object. -/
def parseObject (text : String) : Option Record :=
  match loads text.toList with
  | some (.dict fields) => some fields
  | _ => none

def readRecovery (storage : LocalStorage) (now : Int) (key : String)
    (validate : Option Json → Bool) : Option Draft := do
  let text ← storage key
  if text = "" ∨ maxBytes < textLength text then none
  let fields ← parseObject text
  draftOf now validate fields

/-- The keys of the other drafts, in the order of the enumeration. -/
def otherDrafts (keys : List String) (key : String) : List String :=
  keys.filter fun k => isDraftKey k && k ≠ key

/-- `writeRecovery`, and the storage that it leaves. -/
def writeRecovery (storage : LocalStorage) (keys : List String) (accepts : Bool) (key : String)
    (value : Draft) : LocalStorage × Bool :=
  if maxBytes < textLength value.text then (storage, false)
  else
    let evicted := evict maxEntries (otherDrafts keys key) storage
    if accepts then (set evicted key value.text, true) else (evicted, false)

def removeRecovery (storage : LocalStorage) (key : String) : LocalStorage := remove storage key

def clearEditorRecovery (storage : LocalStorage) (keys : List String) : LocalStorage :=
  (keys.filter isDraftKey).foldl remove storage

inductive Call where
  | read (key : String) (validate : Option Json → Bool)
  | write (key : String) (value : Draft)
  | remove (key : String)
  | clear

/-- A call, and how the browser answers it. -/
structure Event where
  call : Call
  keys : List String
  accepts : Bool
  now : Int

/-- The storage after a call; every call may be made. -/
def step (storage : LocalStorage) (e : Event) : Option LocalStorage :=
  match e.call with
  | .read _ _ => some storage
  | .write key value => some (writeRecovery storage e.keys e.accepts key value).1
  | .remove key => some (removeRecovery storage key)
  | .clear => some (clearEditorRecovery storage e.keys)

/-- The browser enumerates the keys that are there. -/
def Enumerated (storage : LocalStorage) (events : List Event) : Prop :=
  Along step (fun s e _ => Enumerates e.keys s) storage events

/-! ## What is promised -/

/-- When the draft under a key was saved, as far as its text tells. -/
def savedAt (storage : LocalStorage) (key : String) : Option Int := do
  let text ← storage key
  let fields ← parseObject text
  savedAtIn fields

def AtMost (n : Nat) (storage : LocalStorage) : Prop :=
  ∀ keys : List String, keys.Nodup → (∀ k ∈ keys, isDraftKey k = true ∧ storage k ≠ none) →
    keys.length ≤ n

/-- What a write under a key may do to the storage; `written` is what it returns. -/
structure KeptByWrite (s : LocalStorage) (key : String) (written : Bool) (s' : LocalStorage) :
    Prop where
  refused : written = false → ∀ k, isDraftKey k = true → s' k = s k
  others : ∀ k, k ≠ key → s' k = s k ∨ s' k = none
  oldest : ∀ k, k ≠ key → s k ≠ none → s' k = none → isDraftKey k = true ∧
    ∀ k', isDraftKey k' = true → k' ≠ key → s' k' ≠ none →
      ∀ a ∈ savedAt s k, ∀ a' ∈ savedAt s k', a ≤ a'
  bounded : (written = true ∨ ∃ k, s k ≠ none ∧ s' k = none) → AtMost maxEntries s'
  outside : ∀ k, isDraftKey k = false → s' k = s k

/-- What a call may do to the storage. -/
def Keeps (s : LocalStorage) (e : Event) (s' : LocalStorage) : Prop :=
  match e.call with
  | .read _ _ => s' = s
  | .write key value => KeptByWrite s key (writeRecovery s e.keys e.accepts key value).2 s'
  | .remove key => (∀ k, k ≠ key → s' k = s k) ∧ ∀ k, isDraftKey k = false → s' k = s k
  | .clear => ∀ k, isDraftKey k = false → s' k = s k

/-- A valid record, within its time to live. -/
structure Readable (value : Draft) (now : Int) (validate : Option Json → Bool) : Prop where
  recent : value.savedAt ≤ now + 60000 ∧ now - value.savedAt ≤ ttl
  creationKey : isCreationKey value.creationKey = true
  token : ∀ t ∈ value.token, 1 ≤ t ∧ t ≤ maxSafeInteger
  valid : validate value.state = true

/-- What a write stored, and no later call removed or replaced, is read. -/
def ReadsBack (storage : LocalStorage) (events : List Event) : Prop :=
  ∀ before w between r after, events = before ++ w :: (between ++ r :: after) →
    ∀ key value validate, w.call = .write key value → r.call = .read key validate →
    ∀ s₁ s₂ s₃, run step storage before = some s₁ → step s₁ w = some s₂ →
      run step s₂ between = some s₃ →
      (writeRecovery s₁ w.keys w.accepts key value).2 = true → s₃ key = s₂ key →
      Readable value r.now validate → readRecovery s₃ r.now key validate = some value

/-- Nothing is lost but what has to be. -/
def Lossless (storage : LocalStorage) (events : List Event) : Prop :=
  Along step Keeps storage events ∧ ReadsBack storage events

/-- The drafts that a full storage gives up are its oldest. -/
def OldestFirst (s : LocalStorage) (others : List String) : Prop :=
  ∀ k ∈ victims maxEntries others, ∀ k' ∈ survivors maxEntries others,
    ∀ a ∈ savedAt s k, ∀ a' ∈ savedAt s k', a ≤ a'

/-- A call that cannot lose more: a write that finds the storage full is accepted and meets the
oldest drafts first, and keys outside the prefix are not changed. -/
def Safe (s : LocalStorage) (e : Event) : Prop :=
  match e.call with
  | .write key value => maxBytes < textLength value.text ∨
      ((otherDrafts e.keys key).length < maxEntries ∨
        e.accepts = true ∧ OldestFirst s (otherDrafts e.keys key)) ∧
      (isDraftKey key = true ∨ e.accepts = false ∨ s key = some value.text)
  | .remove key => isDraftKey key = true ∨ s key = none
  | _ => True

/-! ## One call -/

section Call

variable {s s' : LocalStorage} {keys : List String} {key k : String} {value : Draft}

theorem mem_otherDrafts (h : Enumerates keys s) :
    k ∈ otherDrafts keys key ↔ s k ≠ none ∧ isDraftKey k = true ∧ k ≠ key := by
  rw [otherDrafts, List.mem_filter, h.mem]
  simp

theorem key_not_victim (h : Enumerates keys s) :
    key ∉ victims maxEntries (otherDrafts keys key) := fun hkey =>
  ((mem_otherDrafts h).mp (mem_keys.mpr (.inl hkey))).2.2 rfl

/-- A write that is long enough to be refused leaves the storage as it is. -/
theorem writeRecovery_long (accepts : Bool) (h : maxBytes < textLength value.text) :
    writeRecovery s keys accepts key value = (s, false) := if_pos h

theorem writeRecovery_written {accepts : Bool} (h : ¬ maxBytes < textLength value.text) :
    (writeRecovery s keys accepts key value).2 = accepts := by
  rw [writeRecovery, if_neg h]
  cases accepts <;> rfl

/-- Under the other keys, a write removes the victims. -/
theorem writeRecovery_other {accepts : Bool} (h : ¬ maxBytes < textLength value.text)
    (hk : k ≠ key) : (writeRecovery s keys accepts key value).1 k =
      if k ∈ victims maxEntries (otherDrafts keys key) then none else s k := by
  rw [writeRecovery, if_neg h]
  cases accepts with
  | true => exact (set_of_ne _ hk).trans (evict_apply ..)
  | false => exact evict_apply ..

theorem writeRecovery_self {accepts : Bool} (hkeys : Enumerates keys s)
    (h : ¬ maxBytes < textLength value.text) : (writeRecovery s keys accepts key value).1 key =
      if accepts then some value.text else s key := by
  rw [writeRecovery, if_neg h]
  cases accepts with
  | true => exact set_self _
  | false => exact (evict_apply ..).trans (if_neg (key_not_victim hkeys))

/-- Fewer drafts than the limit are left under the other keys. -/
theorem atMost_write {accepts : Bool} (hkeys : Enumerates keys s)
    (h : ¬ maxBytes < textLength value.text) :
    AtMost maxEntries (writeRecovery s keys accepts key value).1 := by
  intro drafts hdrafts hstored
  have hleft : drafts.erase key ⊆ survivors maxEntries (otherDrafts keys key) := by
    intro k hk
    obtain ⟨hne, hmem⟩ := hdrafts.mem_erase_iff.mp hk
    obtain ⟨hdraft, hsome⟩ := hstored k hmem
    rw [writeRecovery_other h hne] at hsome
    by_cases hvictim : k ∈ victims maxEntries (otherDrafts keys key)
    · exact absurd (if_pos hvictim) hsome
    · rw [if_neg hvictim] at hsome
      exact (mem_keys.mp ((mem_otherDrafts hkeys).mpr ⟨hsome, hdraft, hne⟩)).resolve_left hvictim
  have hlength := (List.subperm_of_subset (hdrafts.erase key) hleft).length_le
  have hsurvivors : (survivors maxEntries (otherDrafts keys key)).length < maxEntries :=
    length_survivors (by decide)
  have herase : drafts.length ≤ (drafts.erase key).length + 1 := by
    rw [List.length_erase]
    split <;> omega
  omega

theorem write_keeps_iff {accepts : Bool} (hkeys : Enumerates keys s) :
    KeptByWrite s key (writeRecovery s keys accepts key value).2
        (writeRecovery s keys accepts key value).1 ↔
      maxBytes < textLength value.text ∨
        ((otherDrafts keys key).length < maxEntries ∨
          accepts = true ∧ OldestFirst s (otherDrafts keys key)) ∧
        (isDraftKey key = true ∨ accepts = false ∨ s key = some value.text) := by
  by_cases hlong : maxBytes < textLength value.text
  · rw [writeRecovery_long accepts hlong]
    refine iff_of_true ⟨fun _ _ _ => rfl, fun _ _ => .inl rfl, ?_, ?_, fun _ _ => rfl⟩ (.inl hlong)
    · exact fun k _ hsome hnone => absurd hnone hsome
    · rintro (h | ⟨k, hsome, hnone⟩)
      · cases h
      · exact absurd hnone hsome
  have hwritten := @writeRecovery_written s keys key value accepts hlong
  have hother := fun k (hk : k ≠ key) => @writeRecovery_other s keys key k value accepts hlong hk
  have hself := @writeRecovery_self s keys key value accepts hkeys hlong
  rw [or_iff_right hlong]
  constructor
  · intro hkept
    refine ⟨?_, ?_⟩
    · by_cases hfull : (otherDrafts keys key).length < maxEntries
      · exact .inl hfull
      -- a victim that was stored shows that the write was accepted
      obtain ⟨v, hv⟩ := List.exists_mem_of_ne_nil _ (victims_ne_nil (by decide) (not_lt.mp hfull))
      obtain ⟨hsome, hdraft, hne⟩ := (mem_otherDrafts hkeys).mp (mem_keys.mpr (.inl hv))
      refine .inr ⟨?_, ?_⟩
      · by_contra haccepts
        have hsame := hkept.refused (hwritten.trans (Bool.eq_false_iff.mpr haccepts)) v hdraft
        rw [hother v hne, if_pos hv] at hsame
        exact hsome hsame.symm
      · intro k hk k' hk' a ha a' ha'
        obtain ⟨hsome, -, hne⟩ := (mem_otherDrafts hkeys).mp (mem_keys.mpr (.inl hk))
        obtain ⟨hsome', hdraft', hne'⟩ := (mem_otherDrafts hkeys).mp (mem_keys.mpr (.inr hk'))
        have hstays : k' ∉ victims maxEntries (otherDrafts keys key) := fun hv' =>
          disjoint_victims (hkeys.nodup.filter _) hv' hk'
        refine (hkept.oldest k hne hsome ?_).2 k' hdraft' hne' ?_ a ha a' ha'
        · rw [hother k hne, if_pos hk]
        · rwa [hother k' hne', if_neg hstays]
    · by_cases hdraft : isDraftKey key = true
      · exact .inl hdraft
      refine .inr ?_
      have houtside := hkept.outside key (Bool.eq_false_iff.mpr hdraft)
      rw [hself] at houtside
      cases accepts with
      | true => exact .inr houtside.symm
      | false => exact .inl rfl
  · rintro ⟨hroom, hkey⟩
    have hnone : accepts = false → victims maxEntries (otherDrafts keys key) = [] := by
      rintro rfl
      exact victims_eq_nil (hroom.resolve_right fun h => Bool.false_ne_true h.1)
    refine ⟨?_, ?_, ?_, fun _ => atMost_write hkeys hlong, ?_⟩
    · intro hrefused k _
      have hfalse : accepts = false := hwritten.symm.trans hrefused
      by_cases hk : k = key
      · rw [hk, hself, hfalse]
        rfl
      · rw [hother k hk, hnone hfalse]
        exact if_neg List.not_mem_nil
    · intro k hk
      rw [hother k hk]
      split
      · exact .inr rfl
      · exact .inl rfl
    · intro k hne hsome hgone
      have hvictim : k ∈ victims maxEntries (otherDrafts keys key) := by
        by_contra hstays
        rw [hother k hne, if_neg hstays] at hgone
        exact hsome hgone
      refine ⟨((mem_otherDrafts hkeys).mp (mem_keys.mpr (.inl hvictim))).2.1, ?_⟩
      intro k' hdraft' hne' hleft
      have hstays : k' ∉ victims maxEntries (otherDrafts keys key) := fun hv' => by
        rw [hother k' hne', if_pos hv'] at hleft
        exact hleft rfl
      rw [hother k' hne', if_neg hstays] at hleft
      have hsurvives := (mem_keys.mp ((mem_otherDrafts hkeys).mpr ⟨hleft, hdraft', hne'⟩)).resolve_left
        hstays
      rcases hroom with hroom | hroom
      · rw [victims_eq_nil hroom] at hvictim
        exact absurd hvictim List.not_mem_nil
      · exact hroom.2 k hvictim k' hsurvives
    · intro k hdraft
      by_cases hk : k = key
      · subst hk
        rw [hself]
        rcases hkey with hkey | hkey | hkey
        · rw [hdraft] at hkey
          cases hkey
        · rw [hkey]
          rfl
        · rw [hkey]
          exact ite_self _
      · have hstays : k ∉ victims maxEntries (otherDrafts keys key) := fun hv => by
          have hprefixed := ((mem_otherDrafts hkeys).mp (mem_keys.mpr (.inl hv))).2.1
          rw [hdraft] at hprefixed
          cases hprefixed
        rw [hother k hk, if_neg hstays]

/-- **A call keeps what it must iff it is safe.** -/
theorem keeps_iff {e : Event} (hkeys : Enumerates e.keys s) (h : step s e = some s') :
    Keeps s e s' ↔ Safe s e := by
  unfold step at h
  unfold Keeps Safe
  split at h
  · rename_i key validate hcall
    rw [hcall]
    exact iff_of_true (Option.some.inj h).symm trivial
  · rename_i key value hcall
    rw [hcall, ← Option.some.inj h]
    exact write_keeps_iff hkeys
  · rename_i key hcall
    rw [hcall, ← Option.some.inj h]
    constructor
    · rintro ⟨-, houtside⟩
      by_cases hdraft : isDraftKey key = true
      · exact .inl hdraft
      · exact .inr ((houtside key (Bool.eq_false_iff.mpr hdraft)).symm.trans remove_self)
    · intro hsafe
      refine ⟨fun k hk => remove_of_ne hk, fun k hdraft => ?_⟩
      by_cases hk : k = key
      · subst hk
        rcases hsafe with hprefixed | hnone
        · rw [hdraft] at hprefixed
          cases hprefixed
        · rw [hnone]
          exact remove_self
      · exact remove_of_ne hk
  · rename_i hcall
    rw [hcall, ← Option.some.inj h]
    refine iff_of_true (fun k hdraft => ?_) trivial
    rw [clearEditorRecovery, foldl_remove, if_neg]
    intro hk
    have hprefixed := (List.mem_filter.mp hk).2
    rw [hdraft] at hprefixed
    cases hprefixed

end Call

/-! ## Reading what was written -/

section Read

variable {value : Draft} {now : Int} {validate : Option Json → Bool}

theorem parseObject_text (value : Draft) : parseObject value.text = some value.fields := by
  have hread : loads (dumps (.dict value.fields) ++ []) = some (.dict value.fields) :=
    loads_dumps _ (fun _ h => by cases h) rfl
  rw [List.append_nil] at hread
  rw [parseObject, Draft.text, String.toList_ofList, hread]

theorem text_ne_empty (value : Draft) : value.text ≠ "" := by
  intro h
  have hparse := parseObject_text value
  rw [h] at hparse
  have hnone : parseObject "" = none := by decide +kernel
  rw [hnone] at hparse
  cases hparse

/-- The members of a draft as an object. -/
theorem member_fields (value : Draft) :
    member value.fields "version" = some (.int 1) ∧
    member value.fields "savedAt" = some (.int value.savedAt) ∧
    member value.fields "token" =
      some (match value.token with | none => .null | some token => .int token) ∧
    member value.fields "creationKey" = some (.str value.creationKey) ∧
    member value.fields "componentId" = value.componentId.map Json.ofOption ∧
    member value.fields "state" = value.state := by
  obtain ⟨savedAt, token, creationKey, componentId, state⟩ := value
  cases componentId <;> cases state <;> simp [member, Draft.fields]

theorem draftOf_fields (h : Readable value now validate) :
    draftOf now validate value.fields = some value := by
  obtain ⟨hversion, hsaved, htoken, hkey, hid, hstate⟩ := member_fields value
  have hsavedAt : savedAtIn value.fields = some value.savedAt := by rw [savedAtIn, hsaved]
  have hcreation : creationKeyIn value.fields = some value.creationKey := by
    rw [creationKeyIn, hkey]
    exact if_pos h.creationKey
  have hcomponent : componentIdIn value.fields = some value.componentId := by
    rw [componentIdIn, hid]
    rcases value.componentId with _ | _ | id <;> rfl
  have htokens : tokenIn value.fields = some value.token := by
    rw [tokenIn, htoken]
    cases htoken' : value.token with
    | none => rfl
    | some token => exact if_pos (h.token token htoken')
  have hrecent : ¬ (now + 60000 < value.savedAt ∨ ttl < now - value.savedAt) := by
    have := h.recent
    omega
  unfold draftOf
  simp [hversion, hsavedAt, hrecent, hcreation, hcomponent, htokens, hstate, h.valid]

/-- **A draft that is stored is read as it is.** -/
theorem readRecovery_text {storage : LocalStorage} {key : String}
    (hstored : storage key = some value.text) (hlength : ¬ maxBytes < textLength value.text)
    (h : Readable value now validate) : readRecovery storage now key validate = some value := by
  unfold readRecovery
  simp [hstored, text_ne_empty, hlength, parseObject_text, draftOf_fields h]

end Read

/-- What a successful write leaves under its key is the text of the draft. -/
theorem write_stored {s : LocalStorage} {keys : List String} {accepts : Bool} {key : String}
    {value : Draft} (h : (writeRecovery s keys accepts key value).2 = true) :
    (writeRecovery s keys accepts key value).1 key = some value.text ∧
      ¬ maxBytes < textLength value.text := by
  by_cases hlong : maxBytes < textLength value.text
  · rw [writeRecovery_long accepts hlong] at h
    cases h
  · rw [writeRecovery_written hlong] at h
    rw [writeRecovery, if_neg hlong, if_pos h]
    exact ⟨set_self _, hlong⟩

theorem readsBack (storage : LocalStorage) (events : List Event) : ReadsBack storage events := by
  intro before w between r after _ key value validate hw hr s₁ s₂ s₃ _ hstep _ hwritten hkept
    hreadable
  unfold step at hstep
  rw [hw] at hstep
  obtain ⟨hstored, hlength⟩ := write_stored hwritten
  refine readRecovery_text ?_ hlength hreadable
  rw [hkept, ← Option.some.inj hstep, hstored]

/-! ## All calls -/

/-- **Nothing is lost but what has to be iff every call is safe.** -/
theorem lossless_iff {storage : LocalStorage} {events : List Event}
    (h : Enumerated storage events) :
    Lossless storage events ↔ Along step (fun s e _ => Safe s e) storage events := by
  have hsteps : Along step Keeps storage events ↔
      Along step (fun s e _ => Safe s e) storage events := by
    refine along_congr_of_along ?_ h
    intro s e s' hkeys hstep
    exact keeps_iff hkeys hstep
  rw [← hsteps]
  exact and_iff_left (readsBack storage events)

/-! ## Full storages -/

/-- The drafts of eight cards. -/
def eightKeys : List String :=
  ["ackb:editor:v1:user:1", "ackb:editor:v1:user:2", "ackb:editor:v1:user:3",
   "ackb:editor:v1:user:4", "ackb:editor:v1:user:5", "ackb:editor:v1:user:6",
   "ackb:editor:v1:user:7", "ackb:editor:v1:user:8"]

/-- A draft without changes. -/
def plainDraft (savedAt : Int) : Draft where
  savedAt
  token := some 1
  creationKey := "00000000-0000-0000-0000-000000000000"
  componentId := some none
  state := some (.dict [])

/-- A storage with the drafts of eight cards. -/
def eightDrafts : LocalStorage := fun key =>
  if key ∈ eightKeys then some (plainDraft 1).text else none

theorem eightDrafts_enumerates : Enumerates eightKeys eightDrafts where
  nodup := by decide
  mem := by
    intro key
    unfold eightDrafts
    split <;> simp_all

/-- A write of a ninth draft. -/
def ninthWrite (accepts : Bool) : Event :=
  ⟨.write "ackb:editor:v1:user:9" (plainDraft 2), eightKeys, accepts, 2⟩

theorem ninthWrite_enumerated (accepts : Bool) : Enumerated eightDrafts [ninthWrite accepts] :=
  (along_cons rfl).mpr ⟨eightDrafts_enumerates, trivial⟩

theorem plainDraft_short : ¬ maxBytes < textLength (plainDraft 2).text := by decide +kernel

/-- The ninth draft is accepted, and the first of the eight makes room for it. -/
theorem lossless_iff_ninth : Lossless eightDrafts [ninthWrite true] ↔
    Along step (fun s e _ => Safe s e) eightDrafts [ninthWrite true] :=
  lossless_iff (ninthWrite_enumerated true)

/-- The browser refuses a ninth draft, and the draft of the first card is gone. -/
theorem full_storage_loses : ¬ ∀ storage events, Enumerated storage events →
    Lossless storage events := by
  intro h
  have hkept := (h eightDrafts [ninthWrite false] (ninthWrite_enumerated false)).1
  have hwrite : KeptByWrite eightDrafts "ackb:editor:v1:user:9" _ _ :=
    ((along_cons rfl).mp hkept).1
  have hsame := hwrite.refused (writeRecovery_written plainDraft_short) "ackb:editor:v1:user:1"
    (by decide)
  rw [writeRecovery_other plainDraft_short (by decide), if_pos (by decide +kernel)] at hsame
  cases hsame

end ComponentKb.Editor.Storage
