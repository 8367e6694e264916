import PeerMesh.Proofs.Engine.Views

/-!
# Sound engines

`Sound` is what holds of an engine between any two operations. The table edits below keep it; an
entry may only be replaced by one that continues it, and only a peer that has greeted may be put
into a group.
-/

namespace PeerMesh
set_option autoImplicit false

variable {μ : Type}

/-- The entry `p'` continues `p`: the same peer on the same open mailbox, and no less ready. -/
structure Peer.Continues (p p' : Peer μ) : Prop where
  id : p'.id = p.id
  connected : p'.isConnected = true
  endpoint : p'.endpoint = p.endpoint
  entered : p'.ready = p'.hasEntered
  ready : p.ready = true → p'.ready = true

namespace Engine

/-- All that goes out in a HELLO, besides name and endpoint, fits into one. -/
structure Presentable (e : Engine μ) : Prop where
  joined_size : e.joined.size ≤ Wire.limit
  joined_bytes : ∀ {group}, e.joined.contains group = true → group.utf8ByteSize ≤ Wire.limit
  headers_size : e.headers.size ≤ Wire.limit
  headers_fit : ∀ {key value}, e.headers.get? key = some value →
    '=' ∉ key.toList ∧ key.utf8ByteSize + 1 + value.utf8ByteSize ≤ Wire.limit

theorem Presentable.congr {e e' : Engine μ} (h : e.Presentable) (hj : e'.joined = e.joined)
    (hh : e'.headers = e.headers) : e'.Presentable where
  joined_size := hj ▸ h.joined_size
  joined_bytes := hj ▸ h.joined_bytes
  headers_size := hh ▸ h.headers_size
  headers_fit := hh ▸ h.headers_fit

theorem checkGroup_eq_ok {joined : Nat} {group : String} :
    checkGroup joined group = .ok () ↔ group.utf8ByteSize ≤ Wire.limit ∧ joined < Wire.limit := by
  unfold checkGroup
  split
  · simp only [reduceCtorEq, false_iff]
    omega
  · split
    · simp only [reduceCtorEq, false_iff]
      omega
    · simp only [true_iff]
      omega

theorem checkHeader_eq_ok {headers : Headers} {key value : String} :
    checkHeader headers key value = .ok () ↔
      '=' ∉ key.toList ∧ key.utf8ByteSize + 1 + value.utf8ByteSize ≤ Wire.limit ∧
      (headers.contains key = true ∨ headers.size < Wire.limit) := by
  unfold checkHeader
  dsimp only
  split
  · simp_all
  · split
    · simp only [reduceCtorEq, false_iff]
      omega
    · split
      · rename_i hfull
        simp only [Bool.and_eq_true, Bool.not_eq_true', decide_eq_true_eq] at hfull
        simp only [reduceCtorEq, false_iff, hfull.1, Bool.false_eq_true, false_or]
        omega
      · rename_i hroom
        simp only [Bool.and_eq_true, Bool.not_eq_true', decide_eq_true_eq, not_and] at hroom
        cases hk : headers.contains key
        · have := hroom hk
          simp_all
        · simp_all

namespace Presentable
variable {e : Engine μ}

theorem enlist (h : e.Presentable) {group : String}
    (hok : checkGroup e.joined.size group = .ok ()) : (e.enlist group).Presentable := by
  obtain ⟨hbytes, hroom⟩ := checkGroup_eq_ok.mp hok
  refine ⟨?_, ?_, h.headers_size, h.headers_fit⟩
  · have hsize := e.joined.size_insert_le group
    change (e.joined.insert group).size ≤ Wire.limit
    omega
  · intro g hg
    change (e.joined.insert group).contains g = true at hg
    rw [SortedSet.contains_insert, Bool.or_eq_true, decide_eq_true_eq] at hg
    rcases hg with rfl | hg
    · exact hbytes
    · exact h.joined_bytes hg

theorem delist (h : e.Presentable) (group : String) : (e.delist group).Presentable := by
  refine ⟨Nat.le_trans (e.joined.size_erase_le group) h.joined_size, ?_, h.headers_size,
    h.headers_fit⟩
  intro g hg
  change (e.joined.erase group).contains g = true at hg
  rw [SortedSet.contains_erase, Bool.and_eq_true] at hg
  exact h.joined_bytes hg.2

theorem dress (h : e.Presentable) {key value : String}
    (hok : checkHeader e.headers key value = .ok ()) :
    { e with headers := e.headers.insert key value }.Presentable := by
  obtain ⟨hkey, hbytes, hroom⟩ := checkHeader_eq_ok.mp hok
  refine ⟨h.joined_size, h.joined_bytes, ?_, ?_⟩
  · change (e.headers.insert key value).size ≤ Wire.limit
    rcases hroom with hold | hroom
    · rw [SortedMap.size_insert_of_contains value hold]
      exact h.headers_size
    · have hsize := e.headers.size_insert_le key value
      omega
  · intro k v hk
    change (e.headers.insert key value).get? k = some v at hk
    rw [SortedMap.get?_insert] at hk
    split at hk
    · rename_i heq
      subst heq
      obtain rfl := Option.some.inj hk
      exact ⟨hkey, hbytes⟩
    · exact h.headers_fit hk

end Presentable

structure Sound (e : Engine μ) : Prop where
  filed : ∀ {id p}, e.roster.get? id = some p → p.id = id
  connected : ∀ {id p}, e.roster.get? id = some p → p.isConnected = true
  foreign_id : ∀ {id p}, e.roster.get? id = some p → id ≠ e.id
  foreign_endpoint : ∀ {id p}, e.roster.get? id = some p → p.endpoint ≠ e.endpoint
  apart : ∀ {id j p q}, e.roster.get? id = some p → e.roster.get? j = some q →
    p.endpoint = q.endpoint → id = j
  /-- A peer is ready exactly if the application was told that it entered. -/
  entered : ∀ {id p}, e.roster.get? id = some p → p.ready = p.hasEntered
  members : ∀ {id group}, e.isMember id group = true →
    ∃ p, e.roster.get? id = some p ∧ p.ready = true
  named : ∀ {group g}, e.peerGroups.get? group = some g → g.name = group
  inhabited : ∀ {group g}, e.peerGroups.get? group = some g → g.isEmpty = false
  presentable : e.Presentable
  halted : e.stopped = true → e.roster = .empty ∧ e.peerGroups = .empty

theorem presentable_new (id : PeerId) (name endpoint : String) (timing : Timing) :
    (new id name endpoint timing : Engine μ).Presentable where
  joined_size := Nat.zero_le _
  joined_bytes h := by cases h
  headers_size := Nat.zero_le _
  headers_fit h := by cases h

theorem sound_new (id : PeerId) (name endpoint : String) (timing : Timing) :
    (new id name endpoint timing : Engine μ).Sound where
  filed h := by cases h
  connected h := by cases h
  foreign_id h := by cases h
  foreign_endpoint h := by cases h
  apart h := by cases h
  entered h := by cases h
  members h := by cases h
  named h := by cases h
  inhabited h := by cases h
  presentable := presentable_new id name endpoint timing
  halted h := by cases h

namespace Sound
variable {e : Engine μ} {id : PeerId} {p : Peer μ}

theorem running (h : e.Sound) (hp : e.roster.get? id = some p) : e.stopped = false := by
  cases hs : e.stopped
  · rfl
  · rw [(h.halted hs).1] at hp
    cases hp

theorem not_member (h : e.Sound) (hp : e.readyPeer? id = none) (group : String) :
    e.isMember id group = false := by
  cases hm : e.isMember id group
  · rfl
  · obtain ⟨p, hp', hr⟩ := h.members hm
    rw [readyPeer?_eq_some.mpr ⟨hp', hr⟩] at hp
    cases hp

/-! ### Edits outside the tables -/

theorem withOwn (h : e.Sound) {e' : Engine μ} (hp : e'.Presentable) (hid : e'.id = e.id)
    (hep : e'.endpoint = e.endpoint) (hr : e'.roster = e.roster)
    (hg : e'.peerGroups = e.peerGroups) (hs : e'.stopped = e.stopped) : e'.Sound where
  filed := hr ▸ h.filed
  connected := hr ▸ h.connected
  foreign_id := hr ▸ hid ▸ h.foreign_id
  foreign_endpoint := hr ▸ hep ▸ h.foreign_endpoint
  apart := hr ▸ h.apart
  entered := hr ▸ h.entered
  members := by
    intro j group hj
    rw [hr]
    refine h.members (?_ : e.isMember j group = true)
    rwa [isMember, ← hg]
  named := hg ▸ h.named
  inhabited := hg ▸ h.inhabited
  presentable := hp
  halted := by
    rw [hs, hr, hg]
    exact h.halted

theorem withEvents (h : e.Sound) (events : List Event) : { e with events }.Sound :=
  h.withOwn (h.presentable.congr rfl rfl) rfl rfl rfl rfl rfl

theorem enlist (h : e.Sound) {group : String} (hok : checkGroup e.joined.size group = .ok ()) :
    (e.enlist group).Sound :=
  h.withOwn (h.presentable.enlist hok) rfl rfl rfl rfl rfl

theorem delist (h : e.Sound) (group : String) : (e.delist group).Sound :=
  h.withOwn (h.presentable.delist group) rfl rfl rfl rfl rfl

/-! ### Edits of the roster -/

theorem insert (h : e.Sound) (hp : e.roster.get? id = some p) {p' : Peer μ} (hc : p.Continues p') :
    { e with roster := e.roster.insert id p' }.Sound := by
  have old : ∀ {j q}, (e.roster.insert id p').get? j = some q →
      ∃ q₀, e.roster.get? j = some q₀ ∧ q.id = q₀.id ∧ q.endpoint = q₀.endpoint ∧
        q.isConnected = true ∧ q.ready = q.hasEntered := by
    intro j q hq
    rw [SortedMap.get?_insert] at hq
    split at hq
    · rename_i hj
      subst hj
      obtain rfl := Option.some.inj hq
      exact ⟨p, hp, hc.id, hc.endpoint, hc.connected, hc.entered⟩
    · exact ⟨q, hq, rfl, rfl, h.connected hq, h.entered hq⟩
  constructor
  case filed =>
    intro j q hq
    obtain ⟨q₀, h₀, hid, _⟩ := old hq
    exact hid.trans (h.filed h₀)
  case connected =>
    intro j q hq
    obtain ⟨_, _, _, _, hconn, _⟩ := old hq
    exact hconn
  case foreign_id =>
    intro j q hq
    obtain ⟨q₀, h₀, _⟩ := old hq
    exact h.foreign_id h₀
  case foreign_endpoint =>
    intro j q hq
    obtain ⟨q₀, h₀, _, hep, _⟩ := old hq
    rw [hep]
    exact h.foreign_endpoint h₀
  case apart =>
    intro j k q r hq hr heq
    obtain ⟨q₀, hq₀, _, hq, _⟩ := old hq
    obtain ⟨r₀, hr₀, _, hr, _⟩ := old hr
    exact h.apart hq₀ hr₀ (by rw [← hq, ← hr, heq])
  case entered =>
    intro j q hq
    obtain ⟨_, _, _, _, _, hent⟩ := old hq
    exact hent
  case members =>
    intro j group hj
    obtain ⟨q, hq, hr⟩ := h.members hj
    change ∃ q, (e.roster.insert id p').get? j = some q ∧ q.ready = true
    rw [SortedMap.get?_insert]
    split
    · rename_i hji
      subst hji
      obtain rfl := Option.some.inj (hp.symm.trans hq)
      exact ⟨p', rfl, hc.ready hr⟩
    · exact ⟨q, hq, hr⟩
  case named => exact h.named
  case inhabited => exact h.inhabited
  case presentable => exact h.presentable.congr rfl rfl
  case halted =>
    intro hs
    change e.stopped = true at hs
    rw [h.running hp] at hs
    cases hs

theorem putPeer (h : e.Sound) (hs : e.stopped = false) (hnew : e.roster.get? p.id = none)
    (hid : p.id ≠ e.id) (hep : p.endpoint ≠ e.endpoint)
    (hfree : ∀ {j q}, e.roster.get? j = some q → q.endpoint ≠ p.endpoint)
    (hconn : p.isConnected = true) (hent : p.ready = p.hasEntered) : (e.putPeer p).Sound := by
  have old : ∀ {j q}, (e.putPeer p).roster.get? j = some q →
      (j = p.id ∧ q = p) ∨ e.roster.get? j = some q := by
    intro j q hq
    rw [Engine.putPeer, SortedMap.get?_insert] at hq
    split at hq
    · exact .inl ⟨‹_›, (Option.some.inj hq).symm⟩
    · exact .inr hq
  constructor
  case filed =>
    intro j q hq
    rcases old hq with ⟨rfl, rfl⟩ | hq
    · rfl
    · exact h.filed hq
  case connected =>
    intro j q hq
    rcases old hq with ⟨rfl, rfl⟩ | hq
    · exact hconn
    · exact h.connected hq
  case foreign_id =>
    intro j q hq
    rcases old hq with ⟨rfl, rfl⟩ | hq
    · exact hid
    · exact h.foreign_id hq
  case foreign_endpoint =>
    intro j q hq
    rcases old hq with ⟨rfl, rfl⟩ | hq
    · exact hep
    · exact h.foreign_endpoint hq
  case apart =>
    intro j k q r hq hr heq
    rcases old hq with ⟨hj, hq⟩ | hq
    · rcases old hr with ⟨hk, hr⟩ | hr
      · rw [hj, hk]
      · exact absurd (hq ▸ heq.symm) (hfree hr)
    · rcases old hr with ⟨hk, hr⟩ | hr
      · exact absurd (hr ▸ heq) (hfree hq)
      · exact h.apart hq hr heq
  case entered =>
    intro j q hq
    rcases old hq with ⟨rfl, rfl⟩ | hq
    · exact hent
    · exact h.entered hq
  case members =>
    intro j group hj
    obtain ⟨q, hq, hr⟩ := h.members hj
    refine ⟨q, ?_, hr⟩
    have hj : j ≠ p.id := by
      rintro rfl
      rw [hnew] at hq
      cases hq
    rw [Engine.putPeer, SortedMap.get?_insert, if_neg hj]
    exact hq
  case named => exact h.named
  case inhabited => exact h.inhabited
  case presentable => exact h.presentable.congr rfl rfl
  case halted =>
    intro hs'
    change e.stopped = true at hs'
    rw [hs] at hs'
    cases hs'

/-! ### Edits of the groups -/

theorem enrol (h : e.Sound) (hp : e.roster.get? id = some p) (hr : p.ready = true)
    (group : String) : (e.enrol id group).Sound := by
  have stored : ∀ {name g}, (e.enrol id group).peerGroups.get? name = some g →
      g.name = name ∧ g.isEmpty = false := by
    intro name g hg
    rw [Engine.enrol, SortedMap.get?_insert] at hg
    split at hg
    · rename_i hname
      subst hname
      obtain rfl := Option.some.inj hg
      refine ⟨?_, isEmpty_eq_false.mpr ⟨id, by simp [contains_join]⟩⟩
      change ((e.peerGroups.get? name).getD (.new name)).name = name
      cases hold : e.peerGroups.get? name with
      | none => rfl
      | some old => exact h.named hold
    · exact ⟨h.named hg, h.inhabited hg⟩
  refine ⟨h.filed, h.connected, h.foreign_id, h.foreign_endpoint, h.apart, h.entered, ?_,
    fun hg => (stored hg).1, fun hg => (stored hg).2,
    h.presentable.congr rfl rfl, ?_⟩
  · intro j name hj
    rw [isMember_enrol, Bool.or_eq_true, Bool.and_eq_true] at hj
    rcases hj with ⟨hj, _⟩ | hj
    · obtain rfl := of_decide_eq_true hj
      exact ⟨p, hp, hr⟩
    · exact h.members hj
  · intro hs
    change e.stopped = true at hs
    rw [h.running hp] at hs
    cases hs

theorem of_withoutMember {g g' : Group} (hg : withoutMember id g = some g') :
    g'.name = g.name ∧ g'.isEmpty = false := by
  unfold withoutMember at hg
  split at hg
  · cases hg
  · rename_i hfull
    obtain rfl := Option.some.inj hg
    exact ⟨rfl, by simpa using hfull⟩

theorem withdraw (h : e.Sound) (id : PeerId) (group : String) : (e.withdraw id group).Sound := by
  have stored : ∀ {name g}, (e.withdraw id group).peerGroups.get? name = some g →
      g.name = name ∧ g.isEmpty = false := by
    intro name g hg
    rw [Engine.withdraw, SortedMap.get?_filterMap, Option.bind_eq_some_iff] at hg
    obtain ⟨old, hold, hg⟩ := hg
    split at hg
    · obtain ⟨hname, hfull⟩ := of_withoutMember hg
      exact ⟨hname.trans (h.named hold), hfull⟩
    · obtain rfl := Option.some.inj hg
      exact ⟨h.named hold, h.inhabited hold⟩
  refine ⟨h.filed, h.connected, h.foreign_id, h.foreign_endpoint, h.apart, h.entered, ?_,
    fun hg => (stored hg).1, fun hg => (stored hg).2,
    h.presentable.congr rfl rfl, ?_⟩
  · intro j name hj
    rw [isMember_withdraw, Bool.and_eq_true] at hj
    exact h.members hj.2
  · intro hs
    obtain ⟨hr, hg⟩ := h.halted hs
    refine ⟨hr, ?_⟩
    rw [Engine.withdraw, hg]
    rfl

/-- No trace of a removed peer remains, in the roster or in a group. -/
theorem drop (h : e.Sound) (id : PeerId) : (e.drop id).Sound := by
  cases hp : e.roster.get? id with
  | none =>
    rw [drop_of_none hp]
    exact h
  | some p =>
    have old : ∀ {j q}, (e.drop id).roster.get? j = some q → e.roster.get? j = some q := by
      intro j q hq
      rw [get?_drop] at hq
      split at hq
      · cases hq
      · exact hq
    have stored : ∀ {name g}, (e.drop id).peerGroups.get? name = some g →
        g.name = name ∧ g.isEmpty = false := by
      intro name g hg
      rw [peerGroups_drop hp, forget, SortedMap.get?_filterMap, Option.bind_eq_some_iff] at hg
      obtain ⟨g₀, hold, hg⟩ := hg
      split at hg
      · obtain ⟨hname, hfull⟩ := of_withoutMember hg
        exact ⟨hname.trans (h.named hold), hfull⟩
      · obtain rfl := Option.some.inj hg
        exact ⟨h.named hold, h.inhabited hold⟩
    refine ⟨fun hq => h.filed (old hq), fun hq => h.connected (old hq), ?_, ?_,
      fun hq hr heq => h.apart (old hq) (old hr) heq, fun hq => h.entered (old hq), ?_,
      fun hg => (stored hg).1, fun hg => (stored hg).2, ?_, ?_⟩
    · intro j q hq
      simpa only [drop_rest] using h.foreign_id (old hq)
    · intro j q hq
      simpa only [drop_rest] using h.foreign_endpoint (old hq)
    · intro j name hj
      rw [isMember_drop hp, Bool.and_eq_true, Bool.not_eq_true', decide_eq_false_iff_not] at hj
      obtain ⟨q, hq, hr⟩ := h.members hj.2
      exact ⟨q, by rw [get?_drop, if_neg hj.1, hq], hr⟩
    · apply h.presentable.congr <;> simp only [drop_rest]
    · intro hs
      simp only [drop_rest, h.running hp] at hs
      cases hs

theorem halt (h : e.Sound) : e.halt.Sound where
  filed h := by cases h
  connected h := by cases h
  foreign_id h := by cases h
  foreign_endpoint h := by cases h
  apart h := by cases h
  entered h := by cases h
  members h := by cases h
  named h := by cases h
  inhabited h := by cases h
  presentable := h.presentable.congr rfl rfl
  halted _ := ⟨rfl, rfl⟩

end Sound
end Engine
end PeerMesh
