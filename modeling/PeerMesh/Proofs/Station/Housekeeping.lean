import PeerMesh.Proofs.Station.Chore

/-!
# Operations that are nothing but chores

Sending, discovery and the watch over silent peers come down to chores.
-/

namespace PeerMesh
set_option autoImplicit false

variable {κ μ : Type}

namespace Engine

theorem get?_foldl_drop (ids : List PeerId) (e : Engine μ) (j : PeerId) :
    (ids.foldl drop e).roster.get? j = if j ∈ ids then none else e.roster.get? j := by
  induction ids generalizing e with
  | nil => rfl
  | cons id ids ih =>
    rw [List.foldl_cons, ih, get?_drop]
    by_cases hj : j = id
    · simp [hj]
    · simp [hj]

end Engine

namespace Station

/-- A purge removes one after the other who is at the endpoint. -/
theorem exists_stale (s : Station κ μ) (walk : Walk) (endpoint : String) : ∃ stale : List PeerId,
    stale.Nodup ∧
      (∀ {id}, id ∈ stale ↔ ∃ p, s.engine.roster.get? id = some p ∧ p.endpoint = endpoint) ∧
      s.purge walk endpoint =
        stale.foldl (fun s id => (s.note [.purging id endpoint]).remove id) s := by
  have hperm := walk.perm_order s.engine.roster.keys
  refine ⟨_, (hperm.nodup_iff.mpr (SortedMap.nodup_keys _)).filter _, fun {id} => ?_, rfl⟩
  rw [List.mem_filter, hperm.mem_iff, SortedMap.mem_keys]
  constructor
  · rintro ⟨⟨p, hp⟩, hthere⟩
    rw [hp] at hthere
    exact ⟨p, hp, of_decide_eq_true hthere⟩
  · rintro ⟨p, hp, hthere⟩
    exact ⟨⟨p, hp⟩, by rw [hp]; exact decide_eq_true hthere⟩

theorem engine_foldl_purge (endpoint : String) (ids : List PeerId) (s : Station κ μ) :
    (ids.foldl (fun s id => (s.note [.purging id endpoint]).remove id) s).engine =
      ids.foldl Engine.drop s.engine := by
  induction ids generalizing s with
  | nil => rfl
  | cons id ids ih =>
    rw [List.foldl_cons, ih, engine_remove, List.foldl_cons]
    rfl

/-- After a purge nobody is left at the endpoint, and nobody is new. -/
theorem get?_purge (s : Station κ μ) (walk : Walk) (endpoint : String) {j : PeerId} {q : Peer μ}
    (h : (s.purge walk endpoint).engine.roster.get? j = some q) :
    s.engine.roster.get? j = some q ∧ q.endpoint ≠ endpoint := by
  obtain ⟨stale, -, hmem, heq⟩ := s.exists_stale walk endpoint
  rw [heq, engine_foldl_purge, Engine.get?_foldl_drop] at h
  split at h
  · cases h
  · rename_i hstale
    exact ⟨h, fun hq => hstale (hmem.mpr ⟨q, h, hq⟩)⟩

theorem carriage_purge (s : Station κ μ) (walk : Walk) (endpoint : String) :
    (s.purge walk endpoint).carriage = s.carriage := by
  obtain ⟨stale, -, -, heq⟩ := s.exists_stale walk endpoint
  rw [heq]
  clear heq
  induction stale generalizing s with
  | nil => rfl
  | cons id stale ih =>
    rw [List.foldl_cons, ih, carriage_remove]
    rfl

section
variable [Carriage κ μ] {near : PeerId → String → Prop} {s t : Station κ μ} {id : PeerId} {p : Peer μ}

theorem require_of_some (hid : id ≠ s.engine.id) {endpoint : String}
    (hep : endpoint ≠ s.engine.endpoint) (hp : s.engine.roster.get? id = some p) (walk : Walk)
    (now : Nat) : s.require walk id endpoint now = (true, s) := by
  have hself : ¬ (decide (id = s.engine.id) || decide (endpoint = s.engine.endpoint)) = true := by
    simp [hid, hep]
  rw [require, if_neg hself, if_pos (SortedMap.contains_eq_true.mpr ⟨p, hp⟩)]

theorem require_of_none (hid : id ≠ s.engine.id) {endpoint : String}
    (hep : endpoint ≠ s.engine.endpoint) (hp : s.engine.roster.get? id = none) (walk : Walk)
    (now : Nat) :
    s.require walk id endpoint now = (s.purge walk endpoint).meet id endpoint now := by
  have hself : ¬ (decide (id = s.engine.id) || decide (endpoint = s.engine.endpoint)) = true := by
    simp [hid, hep]
  have hnew : ¬ s.engine.roster.contains id = true := by
    rw [SortedMap.contains, hp]
    exact Bool.false_ne_true
  rw [require, if_neg hself, if_neg hnew]

theorem Chores.foldl {α : Type} {f : Station κ μ → α → Station κ μ}
    (hf : ∀ (s : Station κ μ) a, s.engine.Sound → s.Chores near (f s a)) (l : List α) (hs : s.engine.Sound) :
    s.Chores near (l.foldl f s) := by
  induction l generalizing s with
  | nil => exact .refl near s
  | cons a l ih => exact (hf s a hs).trans (ih ((hf s a hs).sound hs))

theorem chores_note (s : Station κ μ) {notes : List Note} (h : notes.filter Note.isAlarm = []) :
    s.Chores near (s.note notes) :=
  .single (.jot rfl rfl (by rw [alarms_note, h, List.append_nil]))

theorem chores_posts (hs : s.engine.Sound) {body : Body} (hb : body.isNeutral = true)
    (ids : List PeerId) : s.Chores near (s.posts body ids) :=
  .foldl (fun _ id _ => .single (.post id body hb)) ids hs

theorem whisper_eq_post (hp : s.engine.roster.get? id = some p) (content : Content) :
    s.whisper id content = s.post id (.whisper content) := by
  rw [whisper, post, hp]

theorem chores_whisper (s : Station κ μ) (id : PeerId) (content : Content) :
    s.Chores near (s.whisper id content) := by
  cases hp : s.engine.roster.get? id with
  | none =>
    rw [whisper, hp]
    exact s.chores_note rfl
  | some p =>
    rw [whisper_eq_post hp]
    exact .single (.post id _ rfl)

theorem shout_eq_posts (hs : s.engine.Sound) {group : String} {g : Group}
    (hg : s.engine.peerGroups.get? group = some g) (content : Content) :
    (s.shout group content).engine = (s.posts (.shout group content) g.members.toList).engine ∧
      (s.shout group content).carriage =
        (s.posts (.shout group content) g.members.toList).carriage := by
  have hposts := posts_eq (fun id e => [.memberUnreached g.name id e]) (.shout group content)
    g.members.nodup_toList s hs.filed
  rw [shout, hg]
  exact ⟨(engine_foldl_remove _ _).trans hposts.1.symm,
    (carriage_foldl_remove _ _).trans hposts.2.symm⟩

theorem chores_shout (hs : s.engine.Sound) (group : String) (content : Content) :
    s.Chores near (s.shout group content) := by
  cases hg : s.engine.peerGroups.get? group with
  | none =>
    rw [shout, hg]
    exact s.chores_note rfl
  | some g =>
    obtain ⟨hengine, hcarriage⟩ := shout_eq_posts hs hg content
    have hquiet := Roster.not_alarm_sendEach (κ := κ) (μ := μ)
      (fun id e => [.memberUnreached g.name id e]) (.shout group content) (fun _ _ => rfl)
      g.members.toList s.engine.roster s.carriage
    have hneutral : (Body.shout group content).isNeutral = true := rfl
    refine (chores_posts hs hneutral g.members.toList).jot hengine hcarriage ?_
    rw [shout, hg, alarms_foldl_remove, alarms_note, alarms_posts]
    exact (congrArg (s.alarms ++ ·) hquiet).trans (List.append_nil _)

theorem chores_purge (hs : s.engine.Sound) (walk : Walk) (endpoint : String) :
    s.Chores near (s.purge walk endpoint) :=
  .foldl (fun s id _ => (s.chores_note rfl).trans (.single (.remove id))) _ hs

/-- Requiring a peer takes chores, and is granted only if the peer has an entry then. -/
theorem chores_require (hs : s.engine.Sound) (hrun : s.engine.stopped = false) (walk : Walk)
    {id : PeerId} {endpoint : String} (hnear : near id endpoint) (now : Nat) :
    s.Chores near (s.require walk id endpoint now).2 ∧
      ((s.require walk id endpoint now).1 = true →
        ∃ p, (s.require walk id endpoint now).2.engine.roster.get? id = some p) := by
  unfold require
  split
  · exact ⟨.refl near s, fun h => by cases h⟩
  · rename_i hown
    obtain ⟨hid, hep⟩ : ¬ id = s.engine.id ∧ ¬ endpoint = s.engine.endpoint := by simpa using hown
    split
    · rename_i hold
      exact ⟨.refl near s, fun _ => SortedMap.contains_eq_true.mp hold⟩
    · rename_i hnew
      have hpurge : s.Chores near (s.purge walk endpoint) := chores_purge hs walk endpoint
      have hself := (hpurge.shifts hs).self
      have habsent : (s.purge walk endpoint).engine.roster.get? id = none := by
        cases hq : (s.purge walk endpoint).engine.roster.get? id with
        | none => rfl
        | some q =>
          have hold := (s.get?_purge walk endpoint hq).1
          exact absurd (SortedMap.contains_eq_true.mpr ⟨q, hold⟩) hnew
      refine ⟨hpurge.trans (.single (.meet now (hself.stopped.trans hrun) ?_ ?_ habsent ?_ hnear)), ?_⟩
      · rwa [hself.id]
      · rwa [hself.endpoint]
      · exact fun hq => (s.get?_purge walk endpoint hq).2
      · intro hmet
        have hmeet := (s.purge walk endpoint).meeting_meet id endpoint now
        generalize (s.purge walk endpoint).meet id endpoint now = u at hmeet hmet ⊢
        cases hmeet with
        | unreached | formless | shut => cases hmet
        | met _ _ _ he =>
          rw [he, Engine.putPeer, SortedMap.get?_insert]
          exact ⟨_, if_pos rfl⟩

theorem chores_found (hs : s.engine.Sound) (walk : Walk) {id : PeerId} {endpoint : String}
    (hnear : near id endpoint) (now : Nat) : s.Chores near (s.found walk id endpoint now) := by
  unfold found
  split
  · exact .refl near s
  · rename_i hrun
    obtain ⟨hreq, -⟩ := chores_require hs (Bool.eq_false_iff.mpr hrun) walk hnear now
    split
    · rename_i u hu
      rw [hu] at hreq
      exact hreq.trans (.single (.refresh id now))
    · rename_i u hu
      rw [hu] at hreq
      exact hreq

theorem chores_lost (s : Station κ μ) (id : PeerId) : s.Chores near (s.lost id) := by
  unfold lost
  split
  · exact .refl near s
  · exact (s.chores_note rfl).trans (.single (.remove id))

/-- Sending does not look at the mark of a peer, so the mark may as well be made before. -/
theorem tell_evade (hp : s.engine.roster.get? id = some p) (hid : p.id = id) (body : Body) :
    let q : Peer μ := { p with evasive := true }
    ((s.evade id).tell q body).1 = (s.tell q body).1 ∧
      ((s.evade id).tell q body).2.engine = { (s.tell q body).2.engine with
        events := s.engine.events ++ (p.declaredName.map (Event.evasive id)).toList } ∧
      ((s.evade id).tell q body).2.carriage = (s.tell q body).2.carriage := by
  refine ⟨?_, ?_, ?_⟩
  · rw [tell, tell, carriage_evade]
  · rw [tell, tell, carriage_evade, engine_note, engine_edit]
    dsimp only
    rw [engine_evade hp]
    dsimp only
    rw [hid, SortedMap.insert_insert]
    rfl
  · rw [tell, tell, carriage_evade]
    rfl

/-- Pinging a peer that gets its mark comes to marking it and then posting to it. -/
theorem ping_eq (hp : s.engine.roster.get? id = some p) (hid : p.id = id) :
    let t :=
      (let (result, s) := s.tell { p with evasive := true } .ping
       let s := match p.declaredName with
         | some name => (s.note [.evasive id name]).emit [.evasive id name]
         | none => s
       s.removeIfLost id result)
    t.engine = ((s.evade id).post id .ping).engine ∧
      t.carriage = ((s.evade id).post id .ping).carriage ∧ t.alarms = s.alarms := by
  obtain ⟨hresult, hengine, hcarriage⟩ := tell_evade hp hid .ping
  rw [post_of_some (get?_evade hp) .ping]
  refine ⟨?_, ?_, ?_⟩
  · rw [engine_removeIfLost, engine_removeIfLost, hresult, hengine]
    cases p.declaredName with
    | none =>
      rw [Option.map_none, Option.toList_none, List.append_nil]
      rfl
    | some name => rfl
  · rw [carriage_removeIfLost, carriage_removeIfLost, hcarriage]
    cases p.declaredName <;> rfl
  · have hquiet : (s.tell { p with evasive := true } .ping).2.alarms = s.alarms := alarms_tell ..
    rw [alarms_removeIfLost, ← hquiet]
    cases p.declaredName with
    | none => rfl
    | some name => exact (alarms_note _ _).trans (List.append_nil _)

/-- Looking at one peer: it is removed, or it is marked and pinged, or it is left alone. -/
theorem chores_reapPeer (hs : s.engine.Sound) (now : Nat) (id : PeerId) :
    s.Chores near (s.reapPeer now id) := by
  cases hp : s.engine.roster.get? id with
  | none =>
    rw [reapPeer, hp]
    exact .refl near s
  | some p =>
    rw [reapPeer, hp]
    dsimp only
    split
    · exact (s.chores_note rfl).trans (.single (.remove id))
    · split
      · obtain ⟨hengine, hcarriage, halarms⟩ := ping_eq hp (hs.filed hp)
        have hping : s.Chores near ((s.evade id).post id .ping) :=
          (Chores.single (.evade id)).trans (.single (.post id .ping rfl))
        exact hping.jot hengine hcarriage
          (halarms.trans (((alarms_post _ _ _).trans (alarms_evade _ _)).symm))
      · exact .refl near s

theorem chores_reap (hs : s.engine.Sound) (walk : Walk) (now : Nat) :
    s.Chores near (s.reap walk now) := by
  unfold reap
  split
  · exact .refl near s
  · exact .foldl (fun _ id h => chores_reapPeer h now id) _ hs

end

end Station
end PeerMesh
