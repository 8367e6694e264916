import PeerMesh.Proofs.Node.InStep
import PeerMesh.Proofs.Station.Room

/-!
# What a node refuses

What a node has recorded goes out in the HELLO of its engine. It refuses a call, or to start, where
that HELLO could not be written down any more. But it counts the groups in its list, and the HELLO
has the set of them. So it also refuses what would fit, if its settings name a group more than once;
otherwise a list never gets a repetition.
-/

namespace PeerMesh
set_option autoImplicit false

namespace Node
variable {κ μ : Type}

/-! ### Checking one after the other -/

theorem bind_eq_ok_iff {ε : Type} {x y : Except ε Unit} :
    (x >>= fun _ => y) = .ok () ↔ x = .ok () ∧ y = .ok () := by
  cases x with
  | error e => exact iff_of_false nofun nofun
  | ok => exact (and_iff_right rfl).symm

/-- Every header is checked against those before it, which do not have its key. -/
theorem checkHeaders_eq_ok {entries : List (String × String)} {checked : Headers}
    (hsize : checked.size ≤ Wire.limit) (hdistinct : (entries.map Prod.fst).Nodup)
    (hnew : ∀ e ∈ entries, checked.contains e.1 = false) :
    checkHeaders entries checked = .ok () ↔
      checked.size + entries.length ≤ Wire.limit ∧ ∀ e ∈ entries,
        '=' ∉ e.1.toList ∧ e.1.utf8ByteSize + 1 + e.2.utf8ByteSize ≤ Wire.limit := by
  induction entries generalizing checked with
  | nil => exact iff_of_true rfl ⟨hsize, fun _ he => by cases he⟩
  | cons e entries ih =>
    obtain ⟨key, value⟩ := e
    obtain ⟨hkey, hdistinct⟩ := List.nodup_cons.mp hdistinct
    obtain ⟨hfresh, hnew⟩ := List.forall_mem_cons.mp hnew
    have hgrown : (checked.insert key value).size = checked.size + 1 :=
      SortedMap.size_insert_of_not_contains hfresh value
    have hnext : ∀ e ∈ entries, (checked.insert key value).contains e.1 = false := by
      intro e he
      have hother : e.1 ≠ key := by
        rintro rfl
        exact hkey (List.mem_map.mpr ⟨e, he, rfl⟩)
      rw [SortedMap.contains, SortedMap.get?_insert, if_neg hother]
      exact hnew e he
    rw [checkHeaders, bind_eq_ok_iff, Engine.checkHeader_eq_ok, hfresh, List.length_cons,
      List.forall_mem_cons]
    -- The headers after this one are only looked at if there is room for it.
    by_cases hroom : checked.size + 1 ≤ Wire.limit
    · rw [ih (hgrown ▸ hroom) hdistinct hnext, hgrown]
      constructor
      · rintro ⟨⟨hplain, hbytes, -⟩, hlength, hrest⟩
        exact ⟨by omega, ⟨hplain, hbytes⟩, hrest⟩
      · rintro ⟨hlength, ⟨hplain, hbytes⟩, hrest⟩
        exact ⟨⟨hplain, hbytes, .inr hroom⟩, by omega, hrest⟩
    · constructor
      · rintro ⟨⟨-, -, hold | hroom'⟩, -⟩
        · cases hold
        · exact absurd hroom' hroom
      · rintro ⟨hlength, -⟩
        omega

theorem checkHeaders_entries {headers : Headers} :
    checkHeaders headers.entries .empty = .ok () ↔ headers.Portable := by
  have hempty : (SortedMap.empty : Headers).size = 0 := rfl
  rw [checkHeaders_eq_ok (Nat.zero_le _) headers.nodup_keys fun _ _ => rfl, hempty, Nat.zero_add]
  constructor
  · rintro ⟨hsize, hentry⟩
    refine ⟨hsize, fun hk => ?_, fun hk => ?_⟩
    · exact (hentry _ (SortedMap.mem_entries.mpr hk)).1
    · exact (hentry _ (SortedMap.mem_entries.mpr hk)).2
  · intro h
    refine ⟨h.size, fun e he => ?_⟩
    have hk := SortedMap.mem_entries.mp he
    exact ⟨h.key hk, h.header hk⟩

theorem checkGroups_eq_ok {groups : List String} {joined : Nat} (hjoined : joined ≤ Wire.limit) :
    checkGroups groups joined = .ok () ↔
      joined + groups.length ≤ Wire.limit ∧ ∀ group ∈ groups, group.utf8ByteSize ≤ Wire.limit := by
  induction groups generalizing joined with
  | nil => exact iff_of_true rfl ⟨hjoined, fun _ hg => by cases hg⟩
  | cons group groups ih =>
    rw [checkGroups, bind_eq_ok_iff, Engine.checkGroup_eq_ok, List.length_cons,
      List.forall_mem_cons]
    by_cases hroom : joined < Wire.limit
    · rw [ih hroom]
      constructor
      · rintro ⟨⟨hbytes, -⟩, hlength, hrest⟩
        exact ⟨by omega, hbytes, hrest⟩
      · rintro ⟨hlength, hbytes, hrest⟩
        exact ⟨⟨hbytes, hroom⟩, by omega, hrest⟩
    · constructor
      · rintro ⟨⟨-, hroom'⟩, -⟩
        exact absurd hroom' hroom
      · rintro ⟨hlength, -⟩
        omega

/-! ### The HELLO of a node -/

/-- The groups of a node, each of them once. -/
def ownGroups (n : Node κ μ) : SortedSet String := .ofList n.groups

/-- The HELLO that says what a node has recorded. -/
def greeting (n : Node κ μ) (endpoint : String) (status : UInt8) : Hello :=
  ⟨endpoint, n.ownGroups.toList, status, n.name, n.headers⟩

section
variable {n : Node κ μ} {endpoint : String} {status : UInt8} {number : UInt16}

theorem mem_ownGroups {group : String} : group ∈ n.ownGroups.toList ↔ group ∈ n.groups := by
  rw [SortedSet.mem_toList, ownGroups, SortedSet.ofList, SortedSet.contains_foldl_insert]
  exact or_iff_left Bool.false_ne_true

theorem length_ownGroups_le : n.ownGroups.toList.length ≤ n.groups.length :=
  (n.ownGroups.nodup_toList.subperm fun _ hg => mem_ownGroups.mp hg).length_le

theorem length_ownGroups (h : n.groups.Nodup) : n.ownGroups.toList.length = n.groups.length :=
  Nat.le_antisymm length_ownGroups_le (h.subperm fun _ hg => mem_ownGroups.mpr hg).length_le

theorem length_ownGroups_append {group : String} (hnew : group ∉ n.groups) :
    ({ n with groups := n.groups ++ [group] } : Node κ μ).ownGroups.toList.length =
      n.ownGroups.toList.length + 1 := by
  have hnodup : (group :: n.ownGroups.toList).Nodup :=
    List.nodup_cons.mpr ⟨mt mem_ownGroups.mp hnew, n.ownGroups.nodup_toList⟩
  refine ((List.perm_ext_iff_of_nodup (SortedSet.nodup_toList _) hnodup).mpr fun g => ?_).length_eq
  rw [mem_ownGroups, List.mem_append, List.mem_singleton, List.mem_cons, mem_ownGroups, or_comm]

theorem greeting_hasForm_iff (hendpoint : endpoint.utf8ByteSize ≤ Wire.limit) :
    (n.greeting endpoint status).HasForm number ↔
      n.ownGroups.toList.length ≤ Wire.limit ∧
        (∀ group ∈ n.groups, group.utf8ByteSize ≤ Wire.limit) ∧
        n.name.utf8ByteSize ≤ Wire.limit ∧ n.headers.Portable := by
  rw [Hello.hasForm_iff]
  constructor
  · rintro ⟨-, hgroups, hname, hheaders⟩
    exact ⟨hgroups.length, fun g hg => hgroups.group g (mem_ownGroups.mpr hg), hname, hheaders⟩
  · rintro ⟨hlength, hgroup, hname, hheaders⟩
    exact ⟨hendpoint, ⟨hlength, fun g hg => hgroup g (mem_ownGroups.mp hg)⟩, hname, hheaders⟩

theorem validate_eq_ok_iff (hendpoint : endpoint.utf8ByteSize ≤ Wire.limit) :
    n.validate = .ok () ↔
      (n.greeting endpoint status).HasForm number ∧ n.groups.length ≤ Wire.limit := by
  rw [validate_eq_ok, checkName_eq_ok, checkHeaders_entries, checkGroups_eq_ok (Nat.zero_le _),
    Nat.zero_add, greeting_hasForm_iff hendpoint]
  constructor
  · rintro ⟨hname, hheaders, hlength, hgroup⟩
    exact ⟨⟨Nat.le_trans length_ownGroups_le hlength, hgroup, hname, hheaders⟩, hlength⟩
  · rintro ⟨⟨-, hgroup, hname, hheaders⟩, hlength⟩
    exact ⟨hname, hheaders, hlength, hgroup⟩

/-- The check of a group asks for room in the list too. -/
theorem checkGroup_eq_ok_iff (hendpoint : endpoint.utf8ByteSize ≤ Wire.limit)
    (hform : (n.greeting endpoint status).HasForm number) {group : String}
    (hnew : group ∉ n.groups) :
    checkGroup n.groups.length group = .ok () ↔
      (({ n with groups := n.groups ++ [group] } : Node κ μ).greeting endpoint status).HasForm number ∧
        n.groups.length < Wire.limit := by
  obtain ⟨-, hgroups, hrest⟩ := (greeting_hasForm_iff hendpoint).mp hform
  have hle : n.ownGroups.toList.length ≤ n.groups.length := length_ownGroups_le
  rw [Engine.checkGroup_eq_ok, greeting_hasForm_iff hendpoint, length_ownGroups_append hnew,
    List.forall_mem_append, List.forall_mem_singleton]
  constructor
  · rintro ⟨hbytes, hroom⟩
    exact ⟨⟨by omega, ⟨hgroups, hbytes⟩, hrest⟩, hroom⟩
  · rintro ⟨⟨-, ⟨-, hbytes⟩, -⟩, hroom⟩
    exact ⟨hbytes, hroom⟩

theorem checkHeader_eq_ok_iff (hendpoint : endpoint.utf8ByteSize ≤ Wire.limit)
    (hform : (n.greeting endpoint status).HasForm number) {key value : String} :
    checkHeader n.headers key value = .ok () ↔
      (({ n with headers := n.headers.insert key value } : Node κ μ).greeting endpoint
        status).HasForm number := by
  obtain ⟨hlength, hgroups, hname, hheaders⟩ := (greeting_hasForm_iff hendpoint).mp hform
  rw [Headers.Portable.insert_iff hheaders, greeting_hasForm_iff hendpoint]
  exact ⟨fun h => ⟨hlength, hgroups, hname, h⟩, fun h => h.2.2.2⟩

end

/-! ### Refusals -/

namespace Act
open MonadExcept (ofExcept)
variable {α β : Type} {act : Act κ μ α} {f : α → Act κ μ β} {n m : Node κ μ}

/-- The answer is that a command is refused. -/
def Refuses (act : Act κ μ α) (n : Node κ μ) : Prop :=
  ∃ e m, act.outcome n = (.error (.command e), m)

theorem refuses_get_bind {f : Node κ μ → Act κ μ β} : (get >>= f).Refuses n ↔ (f n).Refuses n := by
  rw [Refuses, outcome_get_bind]
  rfl

/-- The refusals of an act that first looks at something. -/
theorem refuses_ofExcept_bind {x : Except NodeError α} :
    (ofExcept x >>= f).Refuses n ↔
      (∃ e, x = .error (.command e)) ∨ ∃ a, x = .ok a ∧ (f a).Refuses n := by
  rw [Refuses, outcome_bind, outcome_ofExcept]
  cases x with
  | error e =>
    constructor
    · rintro ⟨e', m, h⟩
      exact .inl ⟨e', congrArg Except.error (Except.error.inj (congrArg Prod.fst h))⟩
    · rintro (⟨e', h⟩ | ⟨a, h, -⟩)
      · exact ⟨e', n, Prod.ext (congrArg Except.error (Except.error.inj h)) rfl⟩
      · cases h
  | ok a =>
    constructor
    · exact fun h => .inr ⟨a, rfl, h⟩
    · rintro (⟨e, h⟩ | ⟨a', h, hrest⟩)
      · cases h
      · obtain rfl := Except.ok.inj h
        exact hrest

theorem not_refuses_of_certain (h : act.Certain) : ¬ act.Refuses n := by
  rintro ⟨e, m, hfail⟩
  obtain ⟨a, l, hok⟩ := h n
  rw [hok] at hfail
  cases hfail

theorem not_refuses_bind (h : ¬ act.Refuses n) (hf : ∀ a, (f a).Certain) :
    ¬ (act >>= f).Refuses n := by
  rintro ⟨e, m, hfail⟩
  rcases bind_eq_error.mp hfail with hfirst | ⟨a, l, -, hrest⟩
  · exact h ⟨e, m, hfirst⟩
  · exact not_refuses_of_certain (hf a) ⟨e, m, hrest⟩

theorem not_refuses_request (r : Request) (n : Node κ μ) : ¬ (request r).Refuses n := by
  rintro ⟨e, m, h⟩
  rw [request, outcome_get_bind] at h
  split at h
  · cases h
  · split at h <;> cases h
  · cases h

theorem not_refuses_requestIfRunning (r : Request) (n : Node κ μ) :
    ¬ (requestIfRunning r).Refuses n := by
  rw [requestIfRunning, refuses_get_bind]
  split
  · exact not_refuses_request r n
  · exact not_refuses_of_certain (certain_pure ())

/-- The check of a command, where nothing is refused after it. -/
theorem refuses_check_bind {x : Except CommandError Unit} {f : Unit → Act κ μ β}
    (hf : ¬ (f ()).Refuses n) : (ofExcept (x.mapError .command) >>= f).Refuses n ↔ x ≠ .ok () := by
  rw [refuses_ofExcept_bind]
  cases x with
  | error e => exact iff_of_true (.inl ⟨e, rfl⟩) nofun
  | ok =>
    refine iff_of_false ?_ fun h => h rfl
    rintro (⟨e, h⟩ | ⟨_, -, h⟩)
    · cases h
    · exact hf h

theorem refuses_setHeader {key value : String} :
    (setHeader key value).Refuses n ↔ checkHeader n.headers key value ≠ .ok () := by
  have hcertain := (certain_modify fun n : Node κ μ =>
    { n with headers := n.headers.insert key value }).bind fun _ =>
      certain_tryCatch (requestIfRunning (.setHeader key value)) fun _ => certain_pure ()
  rw [setHeader, refuses_get_bind]
  exact refuses_check_bind (not_refuses_of_certain hcertain)

theorem refuses_join {group : String} (hnew : group ∉ n.groups) :
    (join group).Refuses n ↔
      (∀ a, n.phase ≠ .stopped a) ∧ checkGroup n.groups.length group ≠ .ok () := by
  have hrest := not_refuses_bind (not_refuses_requestIfRunning (.join group) n) fun _ =>
    certain_modify fun n : Node κ μ => { n with groups := n.groups ++ [group] }
  rw [join, refuses_get_bind, refuses_ofExcept_bind, if_neg (mt List.contains_iff_mem.mp hnew)]
  constructor
  · rintro (⟨e, h⟩ | ⟨_, hopen, h⟩)
    · unfold checkNotStopped at h
      split at h <;> cases h
    · exact ⟨checkNotStopped_eq_ok.mp hopen, (refuses_check_bind hrest).mp h⟩
  · rintro ⟨hopen, h⟩
    exact .inr ⟨(), checkNotStopped_eq_ok.mpr hopen, (refuses_check_bind hrest).mpr h⟩

theorem not_refuses_takeOutlet (n : Node κ μ) : ¬ takeOutlet.Refuses n := by
  rw [takeOutlet, refuses_get_bind]
  split
  · exact not_refuses_of_certain (certain_modify _)
  · rintro ⟨e, m, h⟩
    cases h

/-- The engine of a node that starts refuses nothing, so only the check of the record does. -/
theorem refuses_start [Carriage κ μ] {walk : Walk}
    {bound : Except Tcp.BindError Tcp.SocketAddress} {outward : Option Tcp.IpAddress}
    {published : Except Tcp.BindError Unit} {carriage : κ} :
    (start walk bound outward published carriage).Refuses n ↔
      n.phase = .idle ∧ n.validate ≠ .ok () := by
  rw [start, refuses_get_bind, refuses_ofExcept_bind]
  constructor
  · rintro (⟨e, h⟩ | ⟨_, hidle, h⟩)
    · unfold checkIdle at h
      split at h <;> cases h
    · -- After the check of the record other things can fail, but none of them is a command.
      refine ⟨checkIdle_eq_ok.mp hidle, fun hvalid => ?_⟩
      rw [hvalid] at h
      rcases refuses_ofExcept_bind.mp h with ⟨e, h⟩ | ⟨_, -, h⟩
      · cases h
      rcases refuses_ofExcept_bind.mp h with ⟨e, h⟩ | ⟨listener, -, h⟩
      · cases bound <;> cases h
      rcases refuses_ofExcept_bind.mp h with ⟨e, h⟩ | ⟨ip, -, h⟩
      · unfold advertised at h
        split at h
        · split at h <;> cases h
        · cases h
      rcases refuses_ofExcept_bind.mp h with ⟨e, h⟩ | ⟨s, -, h⟩
      · obtain ⟨t, ht, -⟩ := furnish_of_validate hvalid walk
          (Tcp.SocketAddress.endpoint ⟨ip, 0, listener.port⟩) n.settings.timing carriage
        rw [ht] at h
        cases h
      rcases refuses_ofExcept_bind.mp h with ⟨e, h⟩ | ⟨beacon, -, h⟩
      · unfold publish at h
        split at h
        · cases published <;> cases h
        · cases h
      · exact not_refuses_bind (not_refuses_takeOutlet n) (fun _ => certain_modify _) h
  · rintro ⟨hidle, hvalid⟩
    refine .inr ⟨(), checkIdle_eq_ok.mpr hidle, refuses_ofExcept_bind.mpr (.inl ?_)⟩
    cases hvalidate : n.validate with
    | error e => exact ⟨e, rfl⟩
    | ok => exact absurd hvalidate hvalid

end Act

/-! ### Repetitions -/

theorem Record.nodup_told {κ : Type} {r : Record} (h : r.groups.Nodup) (c : Call κ) :
    (r.told c).groups.Nodup := by
  cases c with
  | join group =>
    rw [told]
    split
    · exact h
    · rename_i hnew
      have hmem : group ∉ r.groups := mt List.contains_iff_mem.mpr hnew
      exact (List.perm_append_singleton group r.groups).nodup_iff.mpr (List.nodup_cons.mpr ⟨hmem, h⟩)
  | leave group => exact h.filter _
  | setName | setHeader | start | whisper | shout | requirePeer | query => exact h

theorem Record.nodup_foldl_told {κ : Type} {r : Record} (h : r.groups.Nodup)
    (calls : List (Call κ)) : (calls.foldl told r).groups.Nodup := by
  induction calls generalizing r with
  | nil => exact h
  | cons c calls ih => exact ih (nodup_told h c)

/-- A list that is made by calls has no repetitions. -/
theorem nodup_groups_run [Carriage κ μ] {settings : Settings} (h : settings.groups.Nodup)
    (id : PeerId) (moves : List (Move κ)) :
    ((new settings id : Node κ μ).run moves).groups.Nodup := by
  obtain ⟨hrecord, -⟩ := (consistent_new (κ := κ) (μ := μ) settings id).run moves
  have hgroups : ((new settings id : Node κ μ).run moves).record.groups.Nodup := by
    rw [hrecord]
    exact Record.nodup_foldl_told h _
  exact hgroups

/-! ### What is refused -/

/-- What a node refuses does not fit into its HELLO, or its list of groups has no room for it. The
list has less room than the HELLO only if the settings name a group more than once. -/
theorem refusals_run_new [Carriage κ μ] (settings : Settings) (id : PeerId) (moves : List (Move κ))
    {endpoint : String} (hendpoint : endpoint.utf8ByteSize ≤ Wire.limit) (status : UInt8)
    (number : UInt16) :
    let n : Node κ μ := (new settings id).run moves
    let Fits (n : Node κ μ) : Prop := (n.greeting endpoint status).HasForm number
    let joining (group : String) : Node κ μ := { n with groups := n.groups ++ [group] }
    (n.phase = .idle → ∀ walk bound outward published carriage,
      (Act.start walk bound outward published carriage).Refuses n ↔
        ¬ Fits n ∨ Wire.limit < n.groups.length) ∧
    (Fits n →
      (∀ key value, (Act.setHeader key value).Refuses n ↔
        ¬ Fits { n with headers := n.headers.insert key value }) ∧
      ∀ group, group ∉ n.groups → ((Act.join group).Refuses n ↔
        (∀ a, n.phase ≠ .stopped a) ∧ (¬ Fits (joining group) ∨ Wire.limit ≤ n.groups.length))) ∧
    (settings.groups.Nodup →
      (n.phase = .idle → ∀ walk bound outward published carriage,
        (Act.start walk bound outward published carriage).Refuses n ↔ ¬ Fits n) ∧
      (Fits n → ∀ group, group ∉ n.groups → ((Act.join group).Refuses n ↔
        (∀ a, n.phase ≠ .stopped a) ∧ ¬ Fits (joining group)))) := by
  intro n Fits joining
  have hstart : n.phase = .idle → ∀ walk bound outward published carriage,
      (Act.start walk bound outward published carriage).Refuses n ↔
        ¬ Fits n ∨ Wire.limit < n.groups.length := by
    intro hidle walk bound outward published carriage
    rw [Act.refuses_start, ne_eq, validate_eq_ok_iff hendpoint, not_and_or, Nat.not_le,
      and_iff_right hidle]
  have hjoin : Fits n → ∀ group, group ∉ n.groups → ((Act.join group).Refuses n ↔
      (∀ a, n.phase ≠ .stopped a) ∧ (¬ Fits (joining group) ∨ Wire.limit ≤ n.groups.length)) := by
    intro hform group hnew
    rw [Act.refuses_join hnew, ne_eq, checkGroup_eq_ok_iff hendpoint hform hnew, not_and_or, Nat.not_lt]
  refine ⟨hstart, fun hform => ⟨fun key value => ?_, hjoin hform⟩, fun hnodup => ?_⟩
  · rw [Act.refuses_setHeader, ne_eq, checkHeader_eq_ok_iff hendpoint hform]
  · have hlength : n.ownGroups.toList.length = n.groups.length :=
      length_ownGroups (nodup_groups_run hnodup id moves)
    refine ⟨fun hidle walk bound outward published carriage => ?_, fun hform group hnew => ?_⟩
    · rw [hstart hidle]
      refine or_iff_left_of_imp fun hlong hform => ?_
      have hroom := ((greeting_hasForm_iff hendpoint).mp hform).1
      omega
    · rw [hjoin hform group hnew]
      refine and_congr_right fun _ => or_iff_left_of_imp fun hfull hgrown => ?_
      have hroom := ((greeting_hasForm_iff hendpoint).mp hgrown).1
      have hgrow : (joining group).ownGroups.toList.length = n.ownGroups.toList.length + 1 :=
        length_ownGroups_append hnew
      omega

/-- One group, named 255 times or once more. -/
theorem refusals_run_new_repeated :
    let n (count : Nat) : Node Network Network.Mailbox :=
      new { Settings.usual with groups := .replicate count "g" } ⟨.replicate 16 1, rfl⟩
    ((n 255).greeting "tcp://10.1.2.3:7000" 1).groups = ["g"] ∧
      (Act.join "h").Refuses (n 255) ∧
      ((n 256).greeting "tcp://10.1.2.3:7000" 1).groups = ["g"] ∧
      ∀ walk bound outward published carriage,
        (Act.start walk bound outward published carriage).Refuses (n 256) := by
  intro n
  have hgroups : ∀ count ∈ [255, 256],
      ((n count).greeting "tcp://10.1.2.3:7000" 1).groups = ["g"] := by decide +kernel
  have hendpoint : "tcp://10.1.2.3:7000".utf8ByteSize ≤ Wire.limit := by decide +kernel
  have hvalid : (n 255).validate = .ok () := by decide +kernel
  have hform : ((n 255).greeting "tcp://10.1.2.3:7000" 1).HasForm 1 :=
    ((validate_eq_ok_iff hendpoint).mp hvalid).1
  have hnew : "h" ∉ (n 255).groups := by decide +kernel
  have hrefuses := fun count => refusals_run_new (κ := Network)
    { Settings.usual with groups := .replicate count "g" } ⟨.replicate 16 1, rfl⟩ [] hendpoint 1 1
  refine ⟨hgroups 255 (by decide), ?_, hgroups 256 (by decide), ?_⟩
  · obtain ⟨-, hjoin⟩ := (hrefuses 255).2.1 hform
    have hfull : Wire.limit ≤ (n 255).groups.length := by decide +kernel
    exact (hjoin "h" hnew).mpr ⟨nofun, .inr hfull⟩
  · intro walk bound outward published carriage
    have hlong : Wire.limit < (n 256).groups.length := by decide +kernel
    exact ((hrefuses 256).1 rfl walk bound outward published carriage).mpr (.inr hlong)

end Node
end PeerMesh
