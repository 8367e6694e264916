import Mathlib.Data.List.TakeWhile
import PeerMesh.Proofs.Wire.Forms

/-!
# The fields of a message

The readers of bytes, words, strings, lists, headers and of the fields of each command accept their
forms and follow their parts, one after the other.
-/

namespace PeerMesh.Wire
set_option autoImplicit false

/-! ### Bytes and words -/

theorem accepts_readByte (field : Field) : Accepts (readByte field) fun b bytes => bytes = [b] := by
  intro bytes b rest
  cases bytes with
  | nil => simp [readByte]
  | cons a bytes => simp [readByte, eq_comm]

theorem readByte_eq_error {field : Field} {bytes : List UInt8} {e : DecodeError} :
    readByte field bytes = .error e ↔ bytes = [] ∧ e = .truncated field := by
  cases bytes with
  | nil => simp [readByte, eq_comm]
  | cons a bytes => simp [readByte]

theorem follows_readByte (field : Field) : Follows (readByte field) [.byte field] := by
  refine .single (accepts_readByte field) (fun bytes e => ?_) fun {front more} => ?_
  · rw [readByte_eq_error]
    constructor
    · rintro ⟨rfl, rfl⟩
      exact .short (p := .byte field) Nat.one_pos
    · intro h
      cases h with
      | short h => exact ⟨List.eq_nil_of_length_eq_zero (Nat.lt_one_iff.mp h), rfl⟩
  · constructor
    · intro h
      cases h with
      | byte field b => exact ⟨b, rfl, rfl⟩
    · rintro ⟨b, rfl, rfl⟩
      exact .byte field b

theorem wordForm_iff {n : UInt16} {hi lo : UInt8} :
    WordForm n hi lo ↔ hi.toUInt16 <<< 8 ||| lo.toUInt16 = n := by
  have hvalue : (hi.toUInt16 <<< 8 ||| lo.toUInt16).toNat = 256 * hi.toNat + lo.toNat := by
    have hhi : hi.toNat < 256 := hi.toNat_lt
    have hlo : lo.toNat < 2 ^ 8 := lo.toNat_lt
    have hshift : UInt16.toNat 8 % 16 = 8 := rfl
    simp only [UInt16.toNat_or, UInt16.toNat_shiftLeft, UInt8.toNat_toUInt16, hshift,
      Nat.shiftLeft_eq, Nat.reducePow]
    rw [Nat.mod_eq_of_lt (by omega : hi.toNat * 256 < 65536), ← Nat.shiftLeft_eq _ 8,
      ← Nat.shiftLeft_add_eq_or_of_lt hlo, Nat.shiftLeft_eq]
    omega
  rw [WordForm, ← hvalue, ← UInt16.toNat_inj, eq_comm]

theorem accepts_readUInt16 (field : Field) : Accepts (readUInt16 field) fun n bytes =>
    ∃ hi lo, bytes = [hi, lo] ∧ WordForm n hi lo := by
  intro bytes n rest
  match bytes with
  | [] | [_] => simp [readUInt16]
  | hi :: lo :: bytes =>
    simp only [readUInt16, Except.ok.injEq, Prod.mk.injEq, ← wordForm_iff]
    constructor
    · rintro ⟨hn, rfl⟩
      exact ⟨[hi, lo], rfl, hi, lo, rfl, hn⟩
    · rintro ⟨_, hbytes, hi', lo', rfl, hn⟩
      simp only [List.cons_append, List.nil_append, List.cons.injEq] at hbytes
      obtain ⟨rfl, rfl, rfl⟩ := hbytes
      exact ⟨hn, rfl⟩

theorem readUInt16_eq_error {field : Field} {bytes : List UInt8} {e : DecodeError} :
    readUInt16 field bytes = .error e ↔ bytes.length < 2 ∧ e = .truncated field := by
  match bytes with
  | [] | [_] => simp [readUInt16, eq_comm]
  | hi :: lo :: bytes =>
    simp only [readUInt16, reduceCtorEq, false_iff, not_and, List.length_cons]
    omega

theorem follows_sequence : Follows (readUInt16 .sequence) [.sequence] := by
  refine .single (accepts_readUInt16 .sequence) (fun bytes e => ?_) fun {front more} => ?_
  · rw [readUInt16_eq_error]
    constructor
    · rintro ⟨h, rfl⟩
      exact .short (p := .sequence) h
    · intro h
      cases h with
      | short h => exact ⟨h, rfl⟩
  · constructor
    · intro h
      cases h with
      | sequence hi lo => exact ⟨_, ⟨hi, lo, rfl, wordForm_iff.mpr rfl⟩, rfl⟩
    · rintro ⟨_, ⟨hi, lo, rfl, -⟩, rfl⟩
      exact .sequence hi lo

/-! ### Strings -/

theorem takeExact_eq_some {α : Type} {n : Nat} {l front rest : List α} :
    takeExact n l = some (front, rest) ↔ l = front ++ rest ∧ front.length = n := by
  induction n generalizing l front rest with
  | zero =>
    rw [takeExact, List.length_eq_zero_iff]
    constructor
    · intro h
      cases h
      exact ⟨rfl, rfl⟩
    · rintro ⟨rfl, rfl⟩
      rfl
  | succ n ih =>
    cases l with
    | nil =>
      simp only [takeExact, reduceCtorEq, false_iff, not_and]
      intro hl hn
      rw [(List.append_eq_nil_iff.mp hl.symm).1] at hn
      cases hn
    | cons a l =>
      simp only [takeExact, Option.map_eq_some_iff, Prod.exists, Prod.mk.injEq, ih]
      constructor
      · rintro ⟨front, rest, ⟨rfl, rfl⟩, rfl, rfl⟩
        exact ⟨rfl, rfl⟩
      · rintro ⟨hl, hn⟩
        obtain ⟨b, front, rfl⟩ := List.exists_cons_of_length_eq_add_one hn
        obtain ⟨rfl, rfl⟩ := List.cons.inj hl
        exact ⟨front, rest, ⟨rfl, Nat.succ.inj hn⟩, rfl, rfl⟩

theorem takeExact_eq_none {α : Type} {n : Nat} {l : List α} :
    takeExact n l = none ↔ l.length < n := by
  induction n generalizing l with
  | zero => simp [takeExact]
  | succ n ih =>
    cases l with
    | nil => simp [takeExact]
    | cons a l => simp [takeExact, ih]

theorem fromUTF8?_eq_some {text : List UInt8} {s : String} :
    String.fromUTF8? ⟨text.toArray⟩ = some s ↔ utf8 s = text := by
  constructor
  · intro h
    unfold String.fromUTF8? at h
    split at h
    · cases h
      rfl
    · cases h
  · rintro rfl
    exact fromUTF8?_utf8 s

theorem fromUTF8?_eq_none {text : List UInt8} :
    String.fromUTF8? ⟨text.toArray⟩ = none ↔ ∀ s, utf8 s ≠ text := by
  rw [Option.eq_none_iff_forall_ne_some]
  exact forall_congr' fun s => not_congr fromUTF8?_eq_some

theorem accepts_readString (field : Field) : Accepts (readString field) StringForm := by
  intro bytes s rest
  cases bytes with
  | nil => simp [readString, readByte, bind, Except.bind, StringForm]
  | cons n bytes =>
    have hread : readString field (n :: bytes) = .ok (s, rest) ↔
        ∃ text, takeExact n.toNat bytes = some (text, rest) ∧ utf8 s = text := by
      simp only [readString, readByte, bind, Except.bind, ← fromUTF8?_eq_some]
      cases takeExact n.toNat bytes with
      | none => simp
      | some taken =>
        obtain ⟨text, rest'⟩ := taken
        cases hs : String.fromUTF8? ⟨text.toArray⟩ with
        | none => simp [hs]
        | some s' => simp [hs, and_comm]
    rw [hread]
    simp only [takeExact_eq_some]
    constructor
    · rintro ⟨_, ⟨rfl, hn⟩, rfl⟩
      exact ⟨n :: utf8 s, rfl, n, hn.symm, rfl⟩
    · rintro ⟨_, hbytes, n', hn, rfl⟩
      obtain ⟨rfl, rfl⟩ := List.cons.inj hbytes
      exact ⟨utf8 s, ⟨rfl, hn.symm⟩, rfl⟩

/-- A string is refused for what is missing first, and then for what is there. -/
theorem readString_eq_error {field : Field} {bytes : List UInt8} {e : DecodeError} :
    readString field bytes = .error e ↔ (Part.string field).Refuses bytes e := by
  cases bytes with
  | nil =>
    constructor
    · intro h
      cases h
      exact .short (p := .string field) Nat.one_pos
    · intro h
      cases h with
      | short => rfl
  | cons n bytes =>
    simp only [readString, readByte, bind, Except.bind]
    cases htake : takeExact n.toNat bytes with
    | none =>
      have hshort := takeExact_eq_none.mp htake
      constructor
      · intro h
        cases h
        refine .short (p := .string field) ?_
        change bytes.length + 1 < 1 + n.toNat
        omega
      · intro h
        cases h with
        | short => rfl
        | string hl =>
          rw [List.length_append] at hshort
          omega
    | some taken =>
      obtain ⟨text, rest⟩ := taken
      obtain ⟨rfl, hn⟩ := takeExact_eq_some.mp htake
      have hlong : ¬ (n :: (text ++ rest)).length < (Part.string field).width (n :: (text ++ rest)) := by
        change ¬ (text ++ rest).length + 1 < 1 + n.toNat
        rw [List.length_append]
        omega
      dsimp only
      cases hs : String.fromUTF8? ⟨text.toArray⟩ with
      | none =>
        constructor
        · intro h
          cases h
          exact .string hn (fromUTF8?_eq_none.mp hs)
        · intro h
          generalize hb : n :: (text ++ rest) = bytes at h hlong
          cases h with
          | short h => exact absurd h hlong
          | string => rfl
      | some s =>
        have hform := fromUTF8?_eq_some.mp hs
        constructor
        · intro h
          cases h
        · intro h
          generalize hb : n :: (text ++ rest) = bytes at h hlong
          cases h with
          | short h => exact absurd h hlong
          | @string _ n' text' rest' hl hno =>
            obtain ⟨rfl, hsame⟩ := List.cons.inj hb
            exact absurd (hform.trans (List.append_inj hsame (hn.trans hl.symm)).1) (hno s)

theorem follows_readString (field : Field) : Follows (readString field) [.string field] := by
  refine .single (accepts_readString field) (fun bytes e => readString_eq_error) fun {front more} => ?_
  constructor
  · intro h
    cases h with
    | string h => exact ⟨_, h, rfl⟩
  · rintro ⟨s, h, rfl⟩
    exact .string h

/-! ### Lists -/

theorem accepts_readEach (field : Field) (n : Nat) :
    Accepts (readEach field n) fun list bytes => list.length = n ∧ EachForm list bytes := by
  induction n with
  | zero =>
    refine (Accepts.pure []).congr fun {list bytes} => ?_
    constructor
    · rintro ⟨rfl, rfl⟩
      exact ⟨rfl, .nil⟩
    · rintro ⟨hn, h⟩
      cases h with
      | nil => exact ⟨rfl, rfl⟩
      | cons => cases hn
  | succ n ih =>
    refine ((accepts_readString field).bind fun s => ih.map (s :: ·)).congr fun {list bytes} => ?_
    constructor
    · rintro ⟨s, front, back, rfl, hs, list, ⟨hn, hlist⟩, rfl⟩
      exact ⟨congrArg Nat.succ hn, .cons hs hlist⟩
    · rintro ⟨hn, h⟩
      cases h with
      | nil => cases hn
      | cons hs hlist => exact ⟨_, _, _, rfl, hs, _, ⟨Nat.succ.inj hn, hlist⟩, rfl⟩

theorem follows_readEach (field : Field) (n : Nat) :
    Follows (readEach field n) (List.replicate n (.string field)) := by
  induction n with
  | zero => exact .pure []
  | succ n ih => exact (follows_readString field).bind fun s => ih.map (s :: ·)

/-- A count announces its items. -/
theorem follows_list {β : Type} {k : UInt8 → Reader β} {item : Part} (field : Field)
    (hk : ∀ n, Follows (k n) (List.replicate n.toNat item)) :
    Follows (fun bytes => readByte field bytes >>= fun p => k p.1 p.2) [.list field item] := by
  refine .announce (accepts_readByte field) (fun bytes e => ?_) (fun {front more} => ?_) hk
  · rw [readByte_eq_error]
    constructor
    · rintro ⟨rfl, rfl⟩
      exact .short (p := .list field item) Nat.one_pos
    · intro h
      cases h with
      | short h => exact ⟨List.eq_nil_of_length_eq_zero (Nat.lt_one_iff.mp h), rfl⟩
  · constructor
    · intro h
      cases h with
      | list _ _ n => exact ⟨n, rfl, rfl⟩
    · rintro ⟨n, rfl, rfl⟩
      exact .list field item n

theorem accepts_readStrings (field : Field) : Accepts (readStrings field) StringsForm := by
  refine ((accepts_readByte field).bind fun n => accepts_readEach field n.toNat).congr
    fun {list bytes} => ?_
  constructor
  · rintro ⟨n, _, items, rfl, rfl, hn, hitems⟩
    exact ⟨n, items, hn.symm, rfl, hitems⟩
  · rintro ⟨n, items, hn, rfl, hitems⟩
    exact ⟨n, [n], items, rfl, rfl, hn.symm, hitems⟩

theorem follows_readStrings (field : Field) :
    Follows (readStrings field) [.list field (.string field)] :=
  follows_list field fun n => follows_readEach field n.toNat

/-! ### Headers -/

theorem toList_entryText (entry : String × String) :
    (entryText entry).toList = entry.1.toList ++ '=' :: entry.2.toList := by
  rw [entryText, String.toList_append, String.toList_append, List.append_assoc]
  rfl

theorem mem_entryText (entry : String × String) : '=' ∈ (entryText entry).toList := by
  rw [toList_entryText]
  exact List.mem_append_right _ List.mem_cons_self

/-- A text that holds a `=` is an entry in one way. -/
theorem exists_entryText {text : String} (h : '=' ∈ text.toList) :
    ∃ entry, '=' ∉ entry.1.toList ∧ text = entryText entry := by
  obtain ⟨key, value, htext, hkey⟩ := List.eq_append_cons_of_mem h
  refine ⟨(String.ofList key, String.ofList value), ?_, ?_⟩
  · rwa [String.toList_ofList]
  · apply String.toList_inj.mp
    rw [toList_entryText, String.toList_ofList, String.toList_ofList, htext]

theorem splitHeader?_eq_none {text : String} : splitHeader? text = none ↔ '=' ∉ text.toList := by
  constructor
  · intro h hmem
    obtain ⟨entry, hkey, rfl⟩ := exists_entryText hmem
    have hsplit : splitHeader? (entryText entry) = some entry := splitHeader?_append hkey entry.2
    rw [hsplit] at h
    cases h
  · intro h
    have hother : ∀ c ∈ text.toList, decide (c ≠ '=') = true := by
      intro c hc
      apply decide_eq_true
      rintro rfl
      exact h hc
    rw [splitHeader?, List.span_eq_takeWhile_dropWhile, List.dropWhile_eq_nil_iff.mpr hother]

theorem splitHeader?_eq_some {text : String} {entry : String × String} :
    splitHeader? text = some entry ↔ '=' ∉ entry.1.toList ∧ text = entryText entry := by
  constructor
  · intro h
    by_cases hmem : '=' ∈ text.toList
    · obtain ⟨entry', hkey, rfl⟩ := exists_entryText hmem
      obtain rfl := Option.some.inj ((splitHeader?_append hkey entry'.2).symm.trans h)
      exact ⟨hkey, rfl⟩
    · rw [splitHeader?_eq_none.mpr hmem] at h
      cases h
  · rintro ⟨hkey, rfl⟩
    exact splitHeader?_append hkey entry.2

def checkEntry (text : String) : Except DecodeError (String × String) :=
  (splitHeader? text).elim (.error .badHeader) .ok

theorem checkEntry_eq_ok {text : String} {entry : String × String} :
    checkEntry text = .ok entry ↔ '=' ∉ entry.1.toList ∧ text = entryText entry := by
  rw [← splitHeader?_eq_some, checkEntry]
  cases splitHeader? text with
  | none => simp
  | some entry' => simp

theorem checkEntry_eq_error {text : String} {e : DecodeError} :
    checkEntry text = .error e ↔ '=' ∉ text.toList ∧ e = .badHeader := by
  rw [← splitHeader?_eq_none, checkEntry]
  cases splitHeader? text with
  | none => simp [eq_comm]
  | some entry => simp

/-- One entry, split at its first `=`. -/
def readEntry : Reader (String × String) := checked (readString .headers) checkEntry

def EntryForm (entry : String × String) (bytes : List UInt8) : Prop :=
  StringForm (entryText entry) bytes ∧ '=' ∉ entry.1.toList

theorem accepts_readEntry : Accepts readEntry EntryForm := by
  refine (accepts_checked (accepts_readString .headers) checkEntry).congr fun {entry bytes} => ?_
  constructor
  · rintro ⟨text, hform, hcheck⟩
    obtain ⟨hkey, rfl⟩ := checkEntry_eq_ok.mp hcheck
    exact ⟨hform, hkey⟩
  · rintro ⟨hform, hkey⟩
    exact ⟨_, hform, checkEntry_eq_ok.mpr ⟨hkey, rfl⟩⟩

theorem width_header (bytes : List UInt8) :
    Part.header.width bytes = (Part.string .headers).width bytes := by
  cases bytes <;> rfl

theorem refuses_header {bytes : List UInt8} {e : DecodeError} :
    Part.header.Refuses bytes e ↔ (Part.string .headers).Refuses bytes e ∨
      ∃ s front rest, bytes = front ++ rest ∧ StringForm s front ∧ '=' ∉ s.toList ∧ e = .badHeader := by
  constructor
  · intro h
    cases h with
    | short h => exact .inl (.short (p := .string .headers) (width_header bytes ▸ h))
    | entry hl h => exact .inl (.string hl h)
    | header hs h => exact .inr ⟨_, _, _, rfl, hs, h, rfl⟩
  · rintro (h | ⟨s, front, rest, rfl, hs, h, rfl⟩)
    · cases h with
      | short h => exact .short (p := .header) ((width_header bytes).symm ▸ h)
      | string hl h => exact .entry hl h
    · exact .header hs h

theorem follows_readEntry : Follows readEntry [.header] := by
  refine .single accepts_readEntry (fun bytes e => ?_) fun {front more} => ?_
  · rw [readEntry, checked_eq_error (accepts_readString .headers), readString_eq_error, refuses_header]
    simp only [checkEntry_eq_error]
  · constructor
    · intro h
      cases h with
      | header h hs =>
        obtain ⟨entry, hkey, rfl⟩ := exists_entryText hs
        exact ⟨entry, ⟨h, hkey⟩, rfl⟩
    · rintro ⟨entry, ⟨h, -⟩, rfl⟩
      exact .header h (mem_entryText entry)

theorem readEachHeader_succ (n : Nat) (headers : Headers) (bytes : List UInt8) :
    readEachHeader (n + 1) headers bytes =
      readEntry bytes >>= fun p => readEachHeader n (headers.insert p.1.1 p.1.2) p.2 := by
  rw [readEachHeader, readEntry, checked]
  cases readString .headers bytes with
  | error e => rfl
  | ok p =>
    simp only [bind, Except.bind, checkEntry]
    cases splitHeader? p.1 <;> rfl

/-- Entries one after the other, put into the headers before them. -/
def EntriesForm (n : Nat) (before headers : Headers) (bytes : List UInt8) : Prop :=
  ∃ entries : List (String × String), entries.length = n ∧
    (∀ entry ∈ entries, '=' ∉ entry.1.toList) ∧ EachForm (entries.map entryText) bytes ∧
    headers = entries.foldl (fun headers entry => headers.insert entry.1 entry.2) before

theorem accepts_readEachHeader (n : Nat) (before : Headers) :
    Accepts (readEachHeader n before) (EntriesForm n before) := by
  induction n generalizing before with
  | zero =>
    refine (Accepts.pure before).congr fun {headers bytes} => ?_
    constructor
    · rintro ⟨rfl, rfl⟩
      exact ⟨[], rfl, List.forall_mem_nil _, EachForm.nil, rfl⟩
    · rintro ⟨entries, hn, -, h, rfl⟩
      obtain rfl := List.eq_nil_of_length_eq_zero hn
      cases h
      exact ⟨rfl, rfl⟩
  | succ n ih =>
    have hbind := accepts_readEntry.bind fun entry => ih (before.insert entry.1 entry.2)
    rw [← funext (readEachHeader_succ n before)] at hbind
    refine hbind.congr fun {headers bytes} => ?_
    constructor
    · rintro ⟨entry, front, back, rfl, ⟨hs, hkey⟩, entries, hn, hkeys, h, rfl⟩
      exact ⟨entry :: entries, congrArg Nat.succ hn, List.forall_mem_cons.mpr ⟨hkey, hkeys⟩,
        .cons hs h, rfl⟩
    · rintro ⟨entries, hn, hkeys, h, rfl⟩
      cases entries with
      | nil => cases hn
      | cons entry entries =>
        obtain ⟨hkey, hkeys⟩ := List.forall_mem_cons.mp hkeys
        cases h with
        | cons hs h =>
          exact ⟨entry, _, _, rfl, ⟨hs, hkey⟩, entries, Nat.succ.inj hn, hkeys, h, rfl⟩

theorem follows_readEachHeader (n : Nat) (before : Headers) :
    Follows (readEachHeader n before) (List.replicate n .header) := by
  induction n generalizing before with
  | zero => exact .pure before
  | succ n ih =>
    rw [funext (readEachHeader_succ n before)]
    exact follows_readEntry.bind fun entry => ih (before.insert entry.1 entry.2)

/-- Of entries with one key the last is found. -/
theorem get?_foldl_insert_entries (entries : List (String × String)) (before : Headers)
    (key : String) :
    (entries.foldl (fun headers entry => headers.insert entry.1 entry.2) before).get? key =
      (entries.reverse.lookup key).or (before.get? key) := by
  induction entries generalizing before with
  | nil => rfl
  | cons entry entries ih =>
    have hlast : List.lookup key [entry] = if key = entry.1 then some entry.2 else none := by
      rw [List.lookup_cons, List.lookup_nil]
      by_cases hkey : key = entry.1
      · rw [beq_iff_eq.mpr hkey, if_pos hkey]
      · rw [beq_eq_false_iff_ne.mpr hkey, if_neg hkey]
    rw [List.foldl_cons, ih, SortedMap.get?_insert, List.reverse_cons, List.lookup_append, hlast,
      Option.or_assoc]
    split <;> rfl

theorem accepts_readHeaders : Accepts readHeaders HeadersForm := by
  refine ((accepts_readByte .headers).bind fun n =>
    accepts_readEachHeader n.toNat .empty).congr fun {headers bytes} => ?_
  have hsame : ∀ entries : List (String × String),
      headers = entries.foldl (fun headers entry => headers.insert entry.1 entry.2) .empty ↔
        ∀ key, headers.get? key = entries.reverse.lookup key := by
    intro entries
    have hget := get?_foldl_insert_entries entries .empty
    simp only [SortedMap.get?_empty, Option.or_none] at hget
    constructor
    · rintro rfl
      exact hget
    · intro h
      exact SortedMap.ext_get? fun key => (h key).trans (hget key).symm
  constructor
  · rintro ⟨n, _, items, rfl, rfl, entries, hn, hkeys, h, hheaders⟩
    exact ⟨entries, hkeys, ⟨n, items, by rw [List.length_map, hn], rfl, h⟩, (hsame entries).mp hheaders⟩
  · rintro ⟨entries, hkeys, ⟨n, items, hn, rfl, h⟩, hheaders⟩
    rw [List.length_map] at hn
    exact ⟨n, [n], items, rfl, rfl, entries, hn.symm, hkeys, h, (hsame entries).mpr hheaders⟩

theorem follows_readHeaders : Follows readHeaders [.list .headers .header] :=
  follows_list .headers fun n => follows_readEachHeader n.toNat .empty

/-! ### Messages -/

theorem accepts_readHello : Accepts readHello HelloForm := by
  refine ((accepts_readString .endpoint).bind fun endpoint => (accepts_readStrings .groups).bind
    fun groups => (accepts_readByte .status).bind fun status => (accepts_readString .name).bind
    fun name => accepts_readHeaders.map (Hello.mk endpoint groups status name)).congr
    fun {h bytes} => ?_
  constructor
  · rintro ⟨endpoint, e, _, rfl, he, groups, g, _, rfl, hg, status, _, _, rfl, rfl, name, n, x, rfl, hn,
      headers, hh, rfl⟩
    exact ⟨e, g, n, x, he, hg, hn, hh, rfl⟩
  · rintro ⟨e, g, n, x, he, hg, hn, hh, rfl⟩
    exact ⟨_, e, _, rfl, he, _, g, _, rfl, hg, _, [h.status], _, rfl, rfl, _, n, x, rfl, hn, _, hh, rfl⟩

theorem follows_readHello : Follows readHello (Part.fieldsOf .hello) :=
  (follows_readString .endpoint).bind fun endpoint => (follows_readStrings .groups).bind
    fun groups => (follows_readByte .status).bind fun status => (follows_readString .name).bind
    fun name => follows_readHeaders.map (Hello.mk endpoint groups status name)

theorem accepts_readFields (content : Content) (c : Command) : Accepts (readFields content c)
    fun body bytes => body.command = c ∧ FieldsForm content body bytes := by
  cases c with
  | hello =>
    refine (accepts_readHello.map Body.hello).congr fun {body bytes} => ?_
    constructor
    · rintro ⟨h, hform, rfl⟩
      exact ⟨rfl, .hello hform⟩
    · rintro ⟨hc, hform⟩
      cases hform with
      | hello hform => exact ⟨_, hform, rfl⟩
      | _ => cases hc
  | whisper =>
    refine (Accepts.pure (Body.whisper content)).congr fun {body bytes} => ?_
    constructor
    · rintro ⟨rfl, rfl⟩
      exact ⟨rfl, .whisper⟩
    · rintro ⟨hc, hform⟩
      cases hform with
      | whisper => exact ⟨rfl, rfl⟩
      | _ => cases hc
  | shout =>
    refine ((accepts_readString .group).map (Body.shout · content)).congr fun {body bytes} => ?_
    constructor
    · rintro ⟨group, h, rfl⟩
      exact ⟨rfl, .shout h⟩
    · rintro ⟨hc, hform⟩
      cases hform with
      | shout h => exact ⟨_, h, rfl⟩
      | _ => cases hc
  | join =>
    refine ((accepts_readString .group).bind fun group =>
      (accepts_readByte .status).map (Body.join group)).congr fun {body bytes} => ?_
    constructor
    · rintro ⟨group, _, _, rfl, h, status, rfl, rfl⟩
      exact ⟨rfl, .join h⟩
    · rintro ⟨hc, hform⟩
      cases hform with
      | join h => exact ⟨_, _, _, rfl, h, _, rfl, rfl⟩
      | _ => cases hc
  | leave =>
    refine ((accepts_readString .group).bind fun group =>
      (accepts_readByte .status).map (Body.leave group)).congr fun {body bytes} => ?_
    constructor
    · rintro ⟨group, _, _, rfl, h, status, rfl, rfl⟩
      exact ⟨rfl, .leave h⟩
    · rintro ⟨hc, hform⟩
      cases hform with
      | leave h => exact ⟨_, _, _, rfl, h, _, rfl, rfl⟩
      | _ => cases hc
  | ping =>
    refine (Accepts.pure Body.ping).congr fun {body bytes} => ?_
    constructor
    · rintro ⟨rfl, rfl⟩
      exact ⟨rfl, .ping⟩
    · rintro ⟨hc, hform⟩
      cases hform with
      | ping => exact ⟨rfl, rfl⟩
      | _ => cases hc
  | pingOk =>
    refine (Accepts.pure Body.pingOk).congr fun {body bytes} => ?_
    constructor
    · rintro ⟨rfl, rfl⟩
      exact ⟨rfl, .pingOk⟩
    · rintro ⟨hc, hform⟩
      cases hform with
      | pingOk => exact ⟨rfl, rfl⟩
      | _ => cases hc

theorem follows_readFields (content : Content) (c : Command) :
    Follows (readFields content c) (Part.fieldsOf c) := by
  cases c with
  | hello => exact follows_readHello.map Body.hello
  | whisper => exact .pure (Body.whisper content)
  | shout => exact (follows_readString .group).map (Body.shout · content)
  | join =>
    exact (follows_readString .group).bind fun group => (follows_readByte .status).map (Body.join group)
  | leave =>
    exact (follows_readString .group).bind fun group => (follows_readByte .status).map (Body.leave group)
  | ping => exact .pure Body.ping
  | pingOk => exact .pure Body.pingOk

end PeerMesh.Wire
