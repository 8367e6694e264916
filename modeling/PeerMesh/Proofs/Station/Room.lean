import PeerMesh.Proofs.Node.Traits
import PeerMesh.Proofs.Wire.Layout

/-!
# What a HELLO has room for

A command that adds to the greeting is checked before anything changes, by counting; a greeting is
written long after, entry by entry. Both stop at the same place. So the headers that a HELLO can carry
are those that a node can be given one after the other, in whichever order, and the same is true of
its groups.
-/

namespace PeerMesh
set_option autoImplicit false

/-- Headers that a HELLO can carry. -/
structure Headers.Portable (headers : Headers) : Prop where
  size : headers.size ≤ Wire.limit
  key : ∀ {key value}, headers.get? key = some value → '=' ∉ key.toList
  header : ∀ {key value}, headers.get? key = some value →
    key.utf8ByteSize + 1 + value.utf8ByteSize ≤ Wire.limit

/-- Groups that a HELLO can carry. -/
structure PortableGroups (groups : List String) : Prop where
  length : groups.length ≤ Wire.limit
  group : ∀ group ∈ groups, group.utf8ByteSize ≤ Wire.limit

namespace Headers.Portable
variable {headers : Headers} {key value : String}

theorem insert_iff (h : headers.Portable) :
    checkHeader headers key value = .ok () ↔ Headers.Portable (headers.insert key value) := by
  rw [Engine.checkHeader_eq_ok]
  have hput : (headers.insert key value).get? key = some value := by
    rw [SortedMap.get?_insert, if_pos rfl]
  constructor
  · rintro ⟨hkey, hbytes, hroom⟩
    have hentry : ∀ {k v}, (headers.insert key value).get? k = some v →
        (k = key ∧ v = value) ∨ headers.get? k = some v := by
      intro k v hk
      rw [SortedMap.get?_insert] at hk
      split at hk
      · exact .inl ⟨‹_›, (Option.some.inj hk).symm⟩
      · exact .inr hk
    refine ⟨?_, ?_, ?_⟩
    · rcases hroom with hold | hroom
      · exact (SortedMap.size_insert_of_contains value hold).symm ▸ h.size
      · exact Nat.le_trans (headers.size_insert_le key value) hroom
    · intro k v hk
      rcases hentry hk with ⟨rfl, rfl⟩ | hk
      · exact hkey
      · exact h.key hk
    · intro k v hk
      rcases hentry hk with ⟨rfl, rfl⟩ | hk
      · exact hbytes
      · exact h.header hk
  · intro hroom
    refine ⟨hroom.key hput, hroom.header hput, ?_⟩
    cases hold : headers.contains key with
    | true => exact .inl rfl
    | false =>
      have hsize := hroom.size
      rw [SortedMap.size_insert_of_not_contains hold] at hsize
      exact .inr hsize

end Headers.Portable

namespace PortableGroups

theorem of_perm {groups groups' : List String} (h : PortableGroups groups) (hp : groups'.Perm groups) :
    PortableGroups groups' :=
  ⟨hp.length_eq.symm ▸ h.length, fun g hg => h.group g (hp.mem_iff.mp hg)⟩

theorem cons_iff {groups : List String} (h : PortableGroups groups) (group : String) :
    checkGroup groups.length group = .ok () ↔ PortableGroups (group :: groups) := by
  rw [Engine.checkGroup_eq_ok]
  constructor
  · rintro ⟨hbytes, hroom⟩
    exact ⟨hroom, List.forall_mem_cons.mpr ⟨hbytes, h.group⟩⟩
  · intro hroom
    exact ⟨hroom.group group List.mem_cons_self, hroom.length⟩

end PortableGroups

theorem checkName_eq_ok {name : String} :
    checkName name = .ok () ↔ name.utf8ByteSize ≤ Wire.limit := by
  unfold checkName
  split
  · simp only [reduceCtorEq, false_iff]
    omega
  · simp only [true_iff]
    omega

namespace Hello

theorem withinLimits_iff (h : Hello) : h.WithinLimits h.headers.entries ↔
    h.endpoint.utf8ByteSize ≤ Wire.limit ∧ PortableGroups h.groups ∧
      h.name.utf8ByteSize ≤ Wire.limit ∧ h.headers.Portable := by
  have hentry : ∀ e : String × String,
      (Wire.entryText e).utf8ByteSize = e.1.utf8ByteSize + 1 + e.2.utf8ByteSize := by
    intro e
    rw [Wire.entryText, String.utf8ByteSize_append, String.utf8ByteSize_append]
    rfl
  constructor
  · intro h
    refine ⟨h.endpoint, ⟨h.groups, h.group⟩, h.name, h.headers, ?_, ?_⟩
    · intro key value hk
      exact h.key (key, value) (SortedMap.mem_entries.mpr hk)
    · intro key value hk
      exact hentry (key, value) ▸ h.header _ (SortedMap.mem_entries.mpr hk)
  · rintro ⟨hendpoint, hgroups, hname, hheaders⟩
    refine ⟨hendpoint, hgroups.length, hgroups.group, hname, hheaders.size, ?_, ?_⟩
    · intro e he
      exact hheaders.key (SortedMap.mem_entries.mp he)
    · intro e he
      exact (hentry e).symm ▸ hheaders.header (SortedMap.mem_entries.mp he)

/-- The greeting can be written down. -/
def HasForm (n : UInt16) (h : Hello) : Prop := ∃ frames, Wire.encode ⟨n, .hello h⟩ = .ok frames

theorem hasForm_iff {n : UInt16} {h : Hello} : h.HasForm n ↔
    h.endpoint.utf8ByteSize ≤ Wire.limit ∧ PortableGroups h.groups ∧
      h.name.utf8ByteSize ≤ Wire.limit ∧ h.headers.Portable := by
  rw [← withinLimits_iff]
  simp only [HasForm, Wire.encode_eq_ok, exists_and_left, exists_eq, and_true]
  rfl

end Hello

namespace Station
variable {κ μ : Type} [Carriage κ μ] {s : Station κ μ}

/-- Operations of which none is refused. -/
def Grants : Station κ μ → List (Turn κ) → Prop
  | _, [] => True
  | s, x :: turns =>
    (perform x.walk { s with carriage := x.carriage } x.op).1 = .ok () ∧ (s.turn x).Grants turns

/-- Headers that are carried together can be set one after the other. -/
theorem grants_setHeader {calls : List (String × String)} {turns : List (Turn κ)}
    (hop : turns.map (·.op) = calls.map fun e => .setHeader e.1 e.2)
    (hsize : s.engine.headers.size + calls.length ≤ Wire.limit)
    (hentry : ∀ e ∈ calls, '=' ∉ e.1.toList ∧ e.1.utf8ByteSize + 1 + e.2.utf8ByteSize ≤ Wire.limit) :
    s.Grants turns ∧ (s.run turns).engine.headers =
      calls.foldl (fun m e => m.insert e.1 e.2) s.engine.headers := by
  induction calls generalizing s turns with
  | nil =>
    obtain rfl := List.map_eq_nil_iff.mp hop
    exact ⟨trivial, rfl⟩
  | cons e calls ih =>
    obtain ⟨x, turns, rfl, hx, hop⟩ := List.map_eq_cons_iff.mp hop
    obtain ⟨⟨hkey, hbytes⟩, hentry⟩ := List.forall_mem_cons.mp hentry
    rw [List.length_cons] at hsize
    have hok : checkHeader s.engine.headers e.1 e.2 = .ok () :=
      Engine.checkHeader_eq_ok.mpr ⟨hkey, hbytes, .inr (by omega)⟩
    have hdo : perform x.walk { s with carriage := x.carriage } x.op =
        (.ok (), ({ s with carriage := x.carriage } : Station κ μ).edit
          fun e₀ => { e₀ with headers := e₀.headers.insert e.1 e.2 }) := by
      rw [hx, perform, setHeader, hok]
    have hturn : (s.turn x).engine.headers = s.engine.headers.insert e.1 e.2 := by
      rw [turn, step, hdo]
      rfl
    have hgrown := s.engine.headers.size_insert_le e.1 e.2
    obtain ⟨hgrants, hrun⟩ := ih (s := s.turn x) hop (by rw [hturn]; omega) hentry
    exact ⟨⟨congrArg Prod.fst hdo, hgrants⟩, hrun.trans (by rw [hturn, List.foldl_cons])⟩

/-- Groups that are carried together can be joined one after the other. -/
theorem grants_join (hs : s.engine.Sound) {calls : List String} {turns : List (Turn κ)}
    (hop : turns.map (·.op) = calls.map .join)
    (hsize : s.engine.joined.size + calls.length ≤ Wire.limit)
    (hgroup : ∀ group ∈ calls, group.utf8ByteSize ≤ Wire.limit) :
    s.Grants turns ∧ (s.run turns).engine.joined = calls.foldl .insert s.engine.joined := by
  induction calls generalizing s turns with
  | nil =>
    obtain rfl := List.map_eq_nil_iff.mp hop
    exact ⟨trivial, rfl⟩
  | cons group calls ih =>
    obtain ⟨x, turns, rfl, hx, hop⟩ := List.map_eq_cons_iff.mp hop
    obtain ⟨hbytes, hgroup⟩ := List.forall_mem_cons.mp hgroup
    rw [List.length_cons] at hsize
    have hok : s.engine.traits.check (.join group) = .ok () := by
      change (if s.engine.joined.contains group then .ok () else
        checkGroup s.engine.joined.size group) = .ok ()
      split
      · rfl
      · exact Engine.checkGroup_eq_ok.mpr ⟨hbytes, by omega⟩
    have hop' : (Request.join group).op? 0 = some x.op := congrArg some hx.symm
    obtain ⟨t, hdo, hsound, htraits⟩ := perform_of_check
      (s := ({ s with carriage := x.carriage } : Station κ μ)) hs x.walk hop' hok
    have hturn : s.turn x = t := congrArg Prod.snd hdo
    have hjoined : t.engine.joined = s.engine.joined.insert group := congrArg Traits.joined htraits
    have hgrown := s.engine.joined.size_insert_le group
    obtain ⟨hgrants, hrun⟩ := ih (s := t) hsound hop (by rw [hjoined]; omega) hgroup
    refine ⟨⟨congrArg Prod.fst hdo, hturn.symm ▸ hgrants⟩, ?_⟩
    rw [hjoined] at hrun
    rw [← hturn] at hrun
    exact hrun

/-- Some operations of a kind, granted or refused, lead to what is wanted of the engine. -/
def Attains (s : Station κ μ) (kind : Op → Prop) (goal : Engine μ → Prop) : Prop :=
  ∃ turns : List (Turn κ), (∀ x ∈ turns, kind x.op) ∧ goal (s.run turns).engine

/-- These operations are all granted and lead to what is wanted of the engine, in whichever order the
peers are gone through and whatever the carriage is between them. -/
def Builds (s : Station κ μ) (ops : List Op) (goal : Engine μ → Prop) : Prop :=
  ∀ turns : List (Turn κ), turns.map (·.op) = ops → s.Grants turns ∧ goal (s.run turns).engine

theorem Builds.attains {ops : List Op} {kind : Op → Prop} {goal : Engine μ → Prop}
    (h : s.Builds ops goal) (hkind : ∀ op ∈ ops, kind op) : s.Attains kind goal := by
  let turns := ops.map (Turn.mk .ascending s.carriage)
  have hops : turns.map (·.op) = ops := by
    rw [List.map_map]
    exact List.map_id ops
  refine ⟨turns, fun x hx => hkind x.op ?_, (h turns hops).2⟩
  rw [← hops]
  exact List.mem_map_of_mem hx

theorem builds_headers (hnone : s.engine.headers = .empty) {headers : Headers}
    (h : headers.Portable) {order : List (String × String)} (hp : order.Perm headers.entries) :
    s.Builds (order.map fun e => .setHeader e.1 e.2) (·.headers = headers) := by
  intro turns hop
  have hentry : ∀ e ∈ order, headers.get? e.1 = some e.2 := fun e he =>
    SortedMap.mem_entries.mp (hp.mem_iff.mp he)
  have hsize : s.engine.headers.size + order.length ≤ Wire.limit := by
    rw [hnone, hp.length_eq]
    exact Nat.zero_add _ ▸ h.size
  obtain ⟨hgrants, hrun⟩ := grants_setHeader hop hsize fun e he =>
    ⟨h.key (hentry e he), h.header (hentry e he)⟩
  refine ⟨hgrants, hrun.trans ?_⟩
  rw [hnone]
  exact SortedMap.foldl_insert_of_perm hp

theorem builds_joined (hs : s.engine.Sound) (hnone : s.engine.joined = .empty)
    {joined : SortedSet String} (h : PortableGroups joined.toList) {order : List String}
    (hp : order.Perm joined.toList) : s.Builds (order.map .join) (·.joined = joined) := by
  intro turns hop
  have hsize : s.engine.joined.size + order.length ≤ Wire.limit := by
    rw [hnone, hp.length_eq]
    exact Nat.zero_add _ ▸ h.length
  obtain ⟨hgrants, hrun⟩ := grants_join hs hop hsize fun group hg => h.group group (hp.mem_iff.mp hg)
  refine ⟨hgrants, hrun.trans ?_⟩
  rw [hnone]
  exact SortedSet.foldl_insert_of_perm hp

end Station

theorem Engine.Presentable.headers {μ : Type} {e : Engine μ} (h : e.Presentable) :
    e.headers.Portable :=
  ⟨h.headers_size, fun hk => (h.headers_fit hk).1, fun hk => (h.headers_fit hk).2⟩

theorem Engine.Presentable.groups {μ : Type} {e : Engine μ} (h : e.Presentable) :
    PortableGroups e.joined.toList :=
  ⟨(List.length_map _).symm ▸ h.joined_size, fun _ hg => h.joined_bytes (SortedSet.mem_toList.mp hg)⟩

/-- The checks of the commands are the limits of the wire form: what they let through is what a HELLO
with room for the rest has room for. So a HELLO can carry exactly the headers that a node without any
can be given by calls, and then in any order of them; and exactly the groups that it can join. -/
theorem Hello.hasForm_extended_iff {κ μ : Type} [Carriage κ μ] {n : UInt16} {h : Hello}
    (hform : h.HasForm n) :
    (∀ key value, checkHeader h.headers key value = .ok () ↔
      Hello.HasForm n { h with headers := h.headers.insert key value }) ∧
    (∀ group groups, groups.Perm (group :: h.groups) →
      (checkGroup h.groups.length group = .ok () ↔ Hello.HasForm n { h with groups })) ∧
    (∀ name, checkName name = .ok () ↔ Hello.HasForm n { h with name }) ∧
    ∀ (id : PeerId) (name endpoint : String) (timing : Timing) (carriage : κ)
      (earlier : List (Turn κ)),
      let s : Station κ μ := (Station.new (Engine.new id name endpoint timing) carriage).run earlier
      (s.engine.headers = .empty → ∀ headers,
        (Hello.HasForm n { h with headers } ↔
          s.Attains (fun op => ∃ key value, op = .setHeader key value) (·.headers = headers)) ∧
        (Hello.HasForm n { h with headers } → ∀ order : List (String × String),
          order.Perm headers.entries →
          s.Builds (order.map fun e => .setHeader e.1 e.2) (·.headers = headers))) ∧
      (s.engine.joined = .empty → ∀ joined : SortedSet String,
        (Hello.HasForm n { h with groups := joined.toList } ↔
          s.Attains (fun op => ∃ group, op = .join group) (·.joined = joined)) ∧
        (Hello.HasForm n { h with groups := joined.toList } → ∀ order : List String,
          order.Perm joined.toList → s.Builds (order.map .join) (·.joined = joined))) := by
  obtain ⟨hendpoint, hgroups, hname, hheaders⟩ := hasForm_iff.mp hform
  have hdress : ∀ headers, Hello.HasForm n { h with headers } ↔ headers.Portable := fun headers =>
    hasForm_iff.trans ⟨fun h => h.2.2.2, fun h => ⟨hendpoint, hgroups, hname, h⟩⟩
  have hseat : ∀ groups, Hello.HasForm n { h with groups } ↔ PortableGroups groups := fun groups =>
    hasForm_iff.trans ⟨fun h => h.2.1, fun h => ⟨hendpoint, h, hname, hheaders⟩⟩
  refine ⟨fun key value => hheaders.insert_iff.trans (hdress _).symm, ?_, ?_, ?_⟩
  · intro group groups hp
    rw [hseat, hgroups.cons_iff]
    exact ⟨fun h => h.of_perm hp, fun h => h.of_perm hp.symm⟩
  · intro name
    rw [checkName_eq_ok, hasForm_iff]
    exact ⟨fun h => ⟨hendpoint, hgroups, h, hheaders⟩, fun h => h.2.2.1⟩
  · intro id name endpoint timing carriage earlier s
    have hs : s.engine.Sound := Station.sound_run (Engine.sound_new id name endpoint timing) earlier
    refine ⟨fun hnone headers => ?_, fun hnone joined => ?_⟩
    · have hbuilds : Hello.HasForm n { h with headers } → ∀ order : List (String × String),
          order.Perm headers.entries →
          s.Builds (order.map fun e => .setHeader e.1 e.2) (·.headers = headers) :=
        fun h order hp => Station.builds_headers hnone ((hdress headers).mp h) hp
      refine ⟨⟨fun h => (hbuilds h _ (.refl _)).attains ?_, ?_⟩, hbuilds⟩
      · intro op hop
        obtain ⟨e, _, rfl⟩ := List.mem_map.mp hop
        exact ⟨e.1, e.2, rfl⟩
      · rintro ⟨turns, -, rfl⟩
        exact (hdress _).mpr (Station.sound_run hs turns).presentable.headers
    · have hbuilds : Hello.HasForm n { h with groups := joined.toList } → ∀ order : List String,
          order.Perm joined.toList → s.Builds (order.map .join) (·.joined = joined) :=
        fun h order hp => Station.builds_joined hs hnone ((hseat _).mp h) hp
      refine ⟨⟨fun h => (hbuilds h _ (.refl _)).attains ?_, ?_⟩, hbuilds⟩
      · intro op hop
        obtain ⟨group, _, rfl⟩ := List.mem_map.mp hop
        exact ⟨group, rfl⟩
      · rintro ⟨turns, -, rfl⟩
        exact (hseat _).mpr (Station.sound_run hs turns).presentable.groups

/-- The longest header that fits beside another, and one that is a byte longer. -/
theorem Hello.hasForm_extended_brim :
    let h : Hello := ⟨"inproc://ann", ["chat"], 1, "ann", .ofList [("role", "käse")]⟩
    let value := String.ofList (List.replicate 126 'ä')
    h.HasForm 1 ∧ Hello.HasForm 1 { h with headers := h.headers.insert "ö" value } ∧
      ¬ Hello.HasForm 1 { h with headers := h.headers.insert "öl" value } := by
  intro h value
  have hform : h.HasForm 1 := ⟨_, rfl⟩
  have hchecks := (hasForm_extended_iff (κ := Network) hform).1
  have hok : checkHeader h.headers "ö" value = .ok () :=
    Engine.checkHeader_eq_ok.mpr (by decide +kernel)
  have hlong : ¬ checkHeader h.headers "öl" value = .ok () :=
    mt Engine.checkHeader_eq_ok.mp (by decide +kernel)
  exact ⟨hform, (hchecks "ö" value).mp hok, mt (hchecks "öl" value).mpr hlong⟩

end PeerMesh
