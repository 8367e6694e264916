import PeerMesh.Proofs.Node.Records

/-!
# When a node starts

The record of a node is checked before its engine is made, and then the engine checks all of it
again, header by header and group by group. The second check never fails.
-/

namespace PeerMesh
set_option autoImplicit false

namespace Node
variable {κ μ : Type}

theorem mapError_eq_ok {ε ε' α : Type} {x : Except ε α} {f : ε → ε'} {a : α} :
    x.mapError f = .ok a ↔ x = .ok a := by
  cases x <;> simp [Except.mapError]

section
variable {n : Node κ μ}

theorem checkIdle_eq_ok : n.checkIdle = .ok () ↔ n.phase = .idle := by
  unfold checkIdle
  split <;> simp_all

theorem advertised_eq_ok {ip : Tcp.IpAddress} {outward : Option Tcp.IpAddress} :
    (∃ address, n.advertised ip outward = .ok address) ↔
    ∀ host, n.settings.advertiseHost = some host → (Tcp.IpAddress.parse? host).isSome := by
  unfold advertised
  cases n.settings.advertiseHost with
  | none => simp
  | some host => cases hparse : Tcp.IpAddress.parse? host <;> simp [hparse]

theorem publish_eq_ok {port : UInt16} {published : Except Tcp.BindError Unit} :
    (∃ beacon, n.publish port published = .ok beacon) ↔
    (n.settings.beaconEnabled = true → published = .ok ()) := by
  unfold publish
  cases n.settings.beaconEnabled with
  | false => simp
  | true => cases published <;> simp [Except.mapError, Except.map]

theorem validate_eq_ok : n.validate = .ok () ↔ checkName n.name = .ok () ∧
    checkHeaders n.headers.entries .empty = .ok () ∧ checkGroups n.groups 0 = .ok () := by
  unfold validate
  cases checkName n.name with
  | error e => simp [bind, Except.bind]
  | ok =>
    cases checkHeaders n.headers.entries .empty with
    | error e => simp [bind, Except.bind]
    | ok => simp [bind, Except.bind]

end

/-- What it takes to start a node: that it has not been started, that its record passes the check,
that its inbox is bound, that the address it is to announce is one, and that there is a socket for
its beacons if it is to have some. -/
structure Startable (n : Node κ μ) (bound : Except Tcp.BindError Tcp.SocketAddress)
    (published : Except Tcp.BindError Unit) : Prop where
  idle : n.phase = .idle
  valid : n.validate = .ok ()
  bound : ∃ listener, bound = .ok listener
  host : ∀ host, n.settings.advertiseHost = some host → (Tcp.IpAddress.parse? host).isSome
  beacon : n.settings.beaconEnabled = true → published = .ok ()

section
variable [Carriage κ μ] {s : Station κ μ}

/-- Headers that pass the check are set one after the other. -/
theorem furnish_headers (walk : Walk) (entries : List (String × String)) (hs : s.engine.Sound)
    (hok : checkHeaders entries s.engine.headers = .ok ()) :
    ∃ t : Station κ μ, entries.foldlM (fun (s : Station κ μ) (key, value) =>
      let (result, s) := s.setHeader key value
      result.map fun () => s) s = .ok t ∧ t.engine.Sound ∧
      t.engine.traits = { s.engine.traits with
        headers := entries.foldl (fun m entry => m.insert entry.1 entry.2) s.engine.headers } := by
  induction entries generalizing s with
  | nil => exact ⟨s, rfl, hs, rfl⟩
  | cons entry entries ih =>
    obtain ⟨key, value⟩ := entry
    unfold checkHeaders at hok
    cases hfirst : checkHeader s.engine.headers key value with
    | error e =>
      rw [hfirst] at hok
      cases hok
    | ok =>
      rw [hfirst] at hok
      have hop : (Request.setHeader key value).op? 0 = some (.setHeader key value) := rfl
      obtain ⟨u, hset, hu, htraits⟩ := Station.perform_of_check hs walk hop hfirst
      have hheaders : u.engine.headers = s.engine.headers.insert key value :=
        congrArg Traits.headers htraits
      have hrest : checkHeaders entries u.engine.headers = .ok () := hheaders ▸ hok
      obtain ⟨t, hrun, ht, hend⟩ := ih hu hrest
      refine ⟨t, ?_, ht, ?_⟩
      · have hset' : s.setHeader key value = (.ok (), u) := hset
        rw [List.foldlM_cons]
        dsimp only
        rw [hset']
        exact hrun
      · rw [hend, htraits, hheaders]
        rfl

/-- Groups that pass the check are joined one after the other. The check counts repetitions, so it
allows no more than the engine does. -/
theorem furnish_groups (walk : Walk) (groups : List String) {r : Record} (hs : s.engine.Sound)
    (h : r.Depicts s.engine.traits) (hok : checkGroups groups r.groups.length = .ok ()) :
    ∃ t : Station κ μ, groups.foldlM (fun (s : Station κ μ) group =>
      let (result, s) := s.join walk group
      result.map fun () => s) s = .ok t ∧ t.engine.Sound ∧
      ({ r with groups := r.groups ++ groups } : Record).Depicts t.engine.traits := by
  induction groups generalizing s r with
  | nil => exact ⟨s, rfl, hs, (List.append_nil r.groups).symm ▸ h⟩
  | cons group groups ih =>
    unfold checkGroups at hok
    cases hfirst : checkGroup r.groups.length group with
    | error e =>
      rw [hfirst] at hok
      cases hok
    | ok =>
      rw [hfirst] at hok
      have hop : (Request.join group).op? 0 = some (.join group) := rfl
      obtain ⟨u, hjoin, hu, htraits⟩ := Station.perform_of_check hs walk hop (h.check_join hfirst)
      -- The list grows by one even if the set does not, so the bound of the check stays ahead.
      have hdepicts := h.append group
      rw [← htraits] at hdepicts
      have hrest : checkGroups groups (r.groups ++ [group]).length = .ok () := by
        rw [List.length_append]
        exact hok
      obtain ⟨t, hrun, ht, hend⟩ := ih hu hdepicts hrest
      refine ⟨t, ?_, ht, ?_⟩
      · have hjoin' : s.join walk group = (.ok (), u) := hjoin
        rw [List.foldlM_cons, hjoin']
        exact hrun
      · rw [List.append_cons]
        exact hend

/-- An engine that is new takes everything that a node may have recorded. -/
theorem furnish_of_validate {n : Node κ μ} (h : n.validate = .ok ()) (walk : Walk)
    (endpoint : String) (timing : Timing) (carriage : κ) :
    ∃ t, n.furnish walk
        (.new (Engine.new n.id n.name endpoint timing : Engine μ) carriage) = .ok t ∧
      t.engine.Sound ∧ n.record.Depicts t.engine.traits := by
  obtain ⟨-, hheaders, hgroups⟩ := validate_eq_ok.mp h
  have hs := Engine.sound_new (μ := μ) n.id n.name endpoint timing
  obtain ⟨u, hset, hu, htraits⟩ := furnish_headers walk n.headers.entries
    (s := .new (Engine.new n.id n.name endpoint timing : Engine μ) carriage) hs hheaders
  have hdepicts : (⟨n.name, n.headers, []⟩ : Record).Depicts u.engine.traits := by
    rw [htraits]
    exact ⟨rfl, SortedMap.foldl_insert_entries n.headers, fun group => by simp; rfl⟩
  obtain ⟨t, hjoin, ht, hend⟩ := furnish_groups walk n.groups hu hdepicts hgroups
  refine ⟨t, ?_, ht, hend⟩
  rw [furnish, hset]
  exact hjoin

variable {m n : Node κ μ} {walk : Walk} {bound : Except Tcp.BindError Tcp.SocketAddress}
  {outward : Option Tcp.IpAddress} {published : Except Tcp.BindError Unit} {carriage : κ}

omit [Carriage κ μ] in
theorem takeOutlet_bind_eq_ok {α : Type} {f : Unit → Act κ μ α} {a : α} :
    (Act.takeOutlet >>= f).outcome n = (.ok a, m) ↔
      n.outlet = true ∧ (f ()).outcome { n with outlet := false } = (.ok a, m) := by
  rw [Act.outcome_bind, Act.takeOutlet, Act.outcome_get_bind]
  cases n.outlet with
  | true => exact (and_iff_right rfl).symm
  | false => exact iff_of_false (fun h => by cases h) (fun h => by cases h.1)

/-- Nothing else is in the way of a start; in particular the engine refuses nothing. -/
theorem start_eq_ok :
    (∃ m, (Act.start walk bound outward published carriage).outcome n = (.ok (), m)) ↔
      n.Startable bound published ∧ n.outlet = true := by
  simp only [Act.start, Act.outcome_get_bind, Act.ofExcept_bind_eq_ok,
    takeOutlet_bind_eq_ok, mapError_eq_ok]
  constructor
  · rintro ⟨m, _, hidle, _, hvalid, listener, hbound, ip, hip, s, -, beacon, hbeacon,
      houtlet, -⟩
    exact ⟨⟨checkIdle_eq_ok.mp hidle, hvalid, ⟨listener, hbound⟩, advertised_eq_ok.mp ⟨ip, hip⟩,
      publish_eq_ok.mp ⟨beacon, hbeacon⟩⟩, houtlet⟩
  · rintro ⟨h, houtlet⟩
    obtain ⟨listener, hbound⟩ := h.bound
    obtain ⟨ip, hip⟩ := advertised_eq_ok.mpr h.host
    obtain ⟨beacon, hbeacon⟩ := publish_eq_ok.mpr h.beacon
    obtain ⟨s, hs, -⟩ := furnish_of_validate h.valid walk _ n.settings.timing carriage
    exact ⟨_, (), checkIdle_eq_ok.mpr h.idle, (), h.valid, listener, hbound, ip, hip, s, hs, beacon,
      hbeacon, houtlet, rfl⟩

/-- A node that starts runs, and is in step with its engine from the beginning. -/
theorem running_of_start
    (h : (Act.start walk bound outward published carriage).outcome n = (.ok (), m)) :
    ∃ x, m = { n with outlet := false, phase := .running x } ∧ x.actor = .new x.actor.station ∧
      InStep n.record x.actor := by
  simp only [Act.start, Act.outcome_get_bind, Act.ofExcept_bind_eq_ok,
    takeOutlet_bind_eq_ok, mapError_eq_ok] at h
  obtain ⟨_, -, _, hvalid, listener, -, ip, -, s, hs, beacon, -, -, hend⟩ := h
  obtain ⟨t, ht, hsound, hdepicts⟩ := furnish_of_validate hvalid walk
    (Tcp.SocketAddress.endpoint ⟨ip, 0, listener.port⟩) n.settings.timing carriage
  obtain rfl := Except.ok.inj (hs.symm.trans ht)
  exact ⟨_, (congrArg Prod.snd hend).symm, rfl, ⟨hsound, trivial, hdepicts⟩⟩

end
end Node
end PeerMesh
