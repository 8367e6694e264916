import PeerMesh.Proofs.Node.Start

/-!
# Which calls are granted

A node grants a call if its record leaves room for it, and if there is a task that takes the request
when there is something to pass on.
-/

namespace PeerMesh
set_option autoImplicit false

namespace Node
variable {κ μ : Type} {m n n' : Node κ μ} {q : Request}

/-! ### Requests -/

/-- What comes of passing a request on. -/
inductive Passes (n : Node κ μ) (q : Request) : Node κ μ → Prop
  | posted {x : Running κ μ} (hx : n.phase = .running x) (hgoing : x.actor.ended = false) :
    Passes n q { n with phase := .running { x with actor := x.actor.post q } }
  | kept (h : ∀ x, n.phase = .running x → x.actor.ended = true) : Passes n q n

theorem Passes.record (h : n.Passes q m) : m.record = n.record := by
  cases h <;> rfl

theorem request_eq_ok : (Act.request q).outcome n = (.ok (), m) ↔
    ∃ x, n.phase = .running x ∧ x.actor.ended = false ∧
      { n with phase := .running { x with actor := x.actor.post q } } = m := by
  rw [Act.request, Act.outcome_get_bind]
  constructor
  · intro h
    split at h
    · cases h
    · rename_i x hx
      split at h
      · cases h
      · rename_i hgoing
        exact ⟨x, hx, Bool.eq_false_iff.mpr hgoing, congrArg Prod.snd h⟩
    · cases h
  · rintro ⟨x, hx, hgoing, rfl⟩
    rw [hx]
    dsimp only
    rw [if_neg (Bool.eq_false_iff.mp hgoing)]
    rfl

/-- There is a task that takes requests. -/
def Serves (n : Node κ μ) : Prop := ∃ x, n.phase = .running x ∧ x.actor.ended = false

theorem exists_request : (∃ m, (Act.request q).outcome n = (.ok (), m)) ↔ n.Serves := by
  constructor
  · rintro ⟨m, hm⟩
    obtain ⟨x, hx, hgoing, -⟩ := request_eq_ok.mp hm
    exact ⟨x, hx, hgoing⟩
  · rintro ⟨x, hx, hgoing⟩
    exact ⟨_, request_eq_ok.mpr ⟨x, hx, hgoing, rfl⟩⟩

theorem passes_request (h : (Act.request q).outcome n = (.ok (), m)) : n.Passes q m := by
  obtain ⟨x, hx, hgoing, rfl⟩ := request_eq_ok.mp h
  exact .posted hx hgoing

theorem requestIfRunning_of_running {x : Running κ μ} (hx : n.phase = .running x) :
    (Act.requestIfRunning q).outcome n = (Act.request q).outcome n := by
  rw [Act.requestIfRunning, Act.outcome_get_bind, hx]

theorem passes_requestIfRunning (h : (Act.requestIfRunning q).outcome n = (.ok (), m)) :
    n.Passes q m := by
  rw [Act.requestIfRunning, Act.outcome_get_bind] at h
  split at h
  · exact passes_request h
  · rename_i hidle
    obtain rfl : n = m := congrArg Prod.snd h
    exact .kept fun x hx => absurd hx (hidle x)

theorem exists_requestIfRunning (hopen : ∀ a, n.phase ≠ .stopped a) :
    (∃ m, (Act.requestIfRunning q).outcome n = (.ok (), m)) ↔ n.phase = .idle ∨ n.Serves := by
  cases hphase : n.phase with
  | idle =>
    rw [Act.requestIfRunning, Act.outcome_get_bind, hphase]
    exact iff_of_true ⟨n, rfl⟩ (.inl rfl)
  | running x =>
    rw [requestIfRunning_of_running hphase, or_iff_right nofun]
    exact exists_request
  | stopped a => exact absurd hphase (hopen a)

theorem checkNotStopped_eq_ok : n.checkNotStopped = .ok () ↔ ∀ a, n.phase ≠ .stopped a := by
  unfold checkNotStopped
  split <;> simp_all

theorem not_stopped (h : n.phase = .idle ∨ n.Serves) (a : Actor κ μ) : n.phase ≠ .stopped a := by
  intro ha
  rcases h with hidle | ⟨x, hx, -⟩
  · rw [hidle] at ha
    cases ha
  · rw [hx] at ha
    cases ha

/-! ### Calls -/

theorem setName_eq_ok {name : String} : (Act.setName name).outcome n = (.ok (), m) ↔
    n.phase = .idle ∧ checkName name = .ok () ∧ { n with name } = m := by
  simp only [Act.setName, Act.outcome_get_bind, Act.ofExcept_bind_eq_ok, mapError_eq_ok]
  constructor
  · rintro ⟨_, hidle, _, hname, hend⟩
    exact ⟨checkIdle_eq_ok.mp hidle, hname, congrArg Prod.snd hend⟩
  · rintro ⟨hidle, hname, rfl⟩
    exact ⟨(), checkIdle_eq_ok.mpr hidle, (), hname, rfl⟩

theorem exists_setName {name : String} :
    (∃ m, (Act.setName name).outcome n = (.ok (), m)) ↔
      n.phase = .idle ∧ checkName name = .ok () := by
  constructor
  · rintro ⟨_, hm⟩
    obtain ⟨hidle, hname, -⟩ := setName_eq_ok.mp hm
    exact ⟨hidle, hname⟩
  · rintro ⟨hidle, hname⟩
    exact ⟨_, setName_eq_ok.mpr ⟨hidle, hname, rfl⟩⟩

theorem exists_setHeader {key value : String} :
    (∃ m, (Act.setHeader key value).outcome n = (.ok (), m)) ↔
      checkHeader n.headers key value = .ok () := by
  simp only [Act.setHeader, Act.outcome_get_bind, Act.ofExcept_bind_eq_ok, mapError_eq_ok]
  constructor
  · rintro ⟨_, _, hok, -⟩
    exact hok
  · intro hok
    have hrest := (Act.certain_modify fun n : Node κ μ =>
      { n with headers := n.headers.insert key value }).bind fun _ =>
        Act.certain_tryCatch (Act.requestIfRunning (.setHeader key value)) fun _ =>
          Act.certain_pure ()
    obtain ⟨_, m, hm⟩ := hrest n
    exact ⟨m, (), hok, hm⟩

/-- A task that broke down is passed over. -/
theorem passes_setHeader {key value : String}
    (h : (Act.setHeader key value).outcome n = (.ok (), m)) :
    checkHeader n.headers key value = .ok () ∧
      { n with headers := n.headers.insert key value }.Passes (.setHeader key value) m := by
  simp only [Act.setHeader, Act.outcome_get_bind, Act.ofExcept_bind_eq_ok, mapError_eq_ok,
    Act.outcome_modify_bind, Act.outcome_tryCatch] at h
  obtain ⟨_, hok, h⟩ := h
  refine ⟨hok, ?_⟩
  generalize { n with headers := n.headers.insert key value } = l at h ⊢
  split at h
  · rename_i hpost
    obtain rfl := congrArg Prod.snd h
    exact passes_requestIfRunning hpost
  · rename_i e l' hfail
    obtain rfl := congrArg Prod.snd h
    obtain rfl := Act.atomic_requestIfRunning _ hfail
    refine .kept fun x hx => ?_
    by_contra hgoing
    obtain ⟨m, hm⟩ := exists_request.mpr ⟨x, hx, Bool.eq_false_iff.mpr hgoing⟩
    rw [requestIfRunning_of_running hx, hm] at hfail
    cases hfail

theorem join_eq_ok {group : String} : (Act.join group).outcome n = (.ok (), m) ↔
    (∀ a, n.phase ≠ .stopped a) ∧ (group ∈ n.groups ∧ n = m ∨
      group ∉ n.groups ∧ checkGroup n.groups.length group = .ok () ∧
        ∃ l, (Act.requestIfRunning (.join group)).outcome n = (.ok (), l) ∧
          { l with groups := l.groups ++ [group] } = m) := by
  rw [Act.join, Act.outcome_get_bind, Act.ofExcept_bind_eq_ok]
  by_cases hmem : group ∈ n.groups
  · rw [if_pos (List.contains_iff_mem.mpr hmem)]
    constructor
    · rintro ⟨_, hopen, hend⟩
      exact ⟨checkNotStopped_eq_ok.mp hopen, .inl ⟨hmem, congrArg Prod.snd hend⟩⟩
    · rintro ⟨hopen, ⟨-, rfl⟩ | ⟨hnew, -⟩⟩
      · exact ⟨(), checkNotStopped_eq_ok.mpr hopen, rfl⟩
      · exact absurd hmem hnew
  · rw [if_neg fun hin => hmem (List.contains_iff_mem.mp hin)]
    simp only [Act.ofExcept_bind_eq_ok, mapError_eq_ok]
    constructor
    · rintro ⟨_, hopen, _, hok, hrest⟩
      obtain ⟨_, l, hl, hend⟩ := Act.bind_eq_ok.mp hrest
      exact ⟨checkNotStopped_eq_ok.mp hopen, .inr ⟨hmem, hok, l, hl, congrArg Prod.snd hend⟩⟩
    · rintro ⟨hopen, ⟨hold, -⟩ | ⟨-, hok, l, hl, rfl⟩⟩
      · exact absurd hold hmem
      · exact ⟨(), checkNotStopped_eq_ok.mpr hopen, (), hok, Act.bind_eq_ok.mpr ⟨(), l, hl, rfl⟩⟩

theorem exists_join {group : String} : (∃ m, (Act.join group).outcome n = (.ok (), m)) ↔
    (∀ a, n.phase ≠ .stopped a) ∧ (group ∈ n.groups ∨
      checkGroup n.groups.length group = .ok () ∧ (n.phase = .idle ∨ n.Serves)) := by
  constructor
  · rintro ⟨_, hm⟩
    obtain ⟨hopen, ⟨hold, -⟩ | ⟨-, hok, l, hl, -⟩⟩ := join_eq_ok.mp hm
    · exact ⟨hopen, .inl hold⟩
    · exact ⟨hopen, .inr ⟨hok, (exists_requestIfRunning hopen).mp ⟨l, hl⟩⟩⟩
  · rintro ⟨hopen, hgroup⟩
    by_cases hmem : group ∈ n.groups
    · exact ⟨n, join_eq_ok.mpr ⟨hopen, .inl ⟨hmem, rfl⟩⟩⟩
    · obtain ⟨hok, hserves⟩ := hgroup.resolve_left hmem
      obtain ⟨l, hl⟩ := (exists_requestIfRunning hopen).mpr hserves
      exact ⟨_, join_eq_ok.mpr ⟨hopen, .inr ⟨hmem, hok, l, hl, rfl⟩⟩⟩

theorem leave_eq_ok {group : String} : (Act.leave group).outcome n = (.ok (), m) ↔
    (∀ a, n.phase ≠ .stopped a) ∧
      ∃ l, (Act.requestIfRunning (.leave group)).outcome n = (.ok (), l) ∧
        { l with groups := l.groups.filter (· ≠ group) } = m := by
  rw [Act.leave, Act.outcome_get_bind, Act.ofExcept_bind_eq_ok]
  constructor
  · rintro ⟨_, hopen, hrest⟩
    obtain ⟨_, l, hl, hend⟩ := Act.bind_eq_ok.mp hrest
    exact ⟨checkNotStopped_eq_ok.mp hopen, l, hl, congrArg Prod.snd hend⟩
  · rintro ⟨hopen, l, hl, rfl⟩
    exact ⟨(), checkNotStopped_eq_ok.mpr hopen, Act.bind_eq_ok.mpr ⟨(), l, hl, rfl⟩⟩

theorem exists_leave {group : String} :
    (∃ m, (Act.leave group).outcome n = (.ok (), m)) ↔ n.phase = .idle ∨ n.Serves := by
  constructor
  · rintro ⟨_, hm⟩
    obtain ⟨hopen, l, hl, -⟩ := leave_eq_ok.mp hm
    exact (exists_requestIfRunning hopen).mp ⟨l, hl⟩
  · intro hserves
    obtain ⟨l, hl⟩ := (exists_requestIfRunning (not_stopped hserves)).mpr hserves
    exact ⟨_, leave_eq_ok.mpr ⟨not_stopped hserves, l, hl, rfl⟩⟩

/-- Which calls are granted. -/
def Permits (n : Node κ μ) : Call κ → Prop
  | .setName name => n.phase = .idle ∧ checkName name = .ok ()
  | .setHeader key value => checkHeader n.headers key value = .ok ()
  | .join group => (∀ a, n.phase ≠ .stopped a) ∧ (group ∈ n.groups ∨
    checkGroup n.groups.length group = .ok () ∧ (n.phase = .idle ∨ n.Serves))
  | .leave _ => n.phase = .idle ∨ n.Serves
  | .start _ bound _ published _ => n.Startable bound published
  | .whisper .. | .shout .. | .requirePeer .. | .query _ => n.Serves

/-- Only a node that has not been started needs its outlet, and it has it. -/
theorem exists_act [Carriage κ μ] (houtlet : n.phase = .idle → n.outlet = true) {c : Call κ} :
    (∃ m, c.act.outcome n = (.ok (), m)) ↔ n.Permits c := by
  cases c with
  | setName name => exact exists_setName
  | setHeader key value => exact exists_setHeader
  | join group => exact exists_join
  | leave group => exact exists_leave
  | start walk bound outward published carriage =>
    exact start_eq_ok.trans (and_iff_left_of_imp fun h => houtlet h.idle)
  | whisper | shout | requirePeer | query => exact exists_request

end Node
end PeerMesh
