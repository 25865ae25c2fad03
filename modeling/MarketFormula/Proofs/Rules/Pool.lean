import Mathlib.Data.List.Perm.Basic
import MarketFormula.Proofs.Result
import MarketFormula.Rules.Pool

/-!
# Pools lose no job

In every state that a pool can come to, each job is in one place: it waits, a worker has it, or it
is finished. So a pool that can do nothing more has finished all jobs.
-/
namespace MarketFormula.Pool

namespace State

variable {workers : Nat} {s s' : State}

def jobs (s : State) : List Nat :=
  s.finished ++ (s.busy ++ s.waiting)

/-- Events that are still to come: two for a job that waits, one for a job that a worker has. -/
def outstanding (s : State) : Nat :=
  2 * s.waiting.length + s.busy.length

lemma step?_eq_some {event : Event} (h : s.step? workers event = some s') :
    (∃ job waiting, event = .start ∧ s.waiting = job :: waiting ∧ s.busy.length < workers ∧
      s' = ⟨waiting, job :: s.busy, s.finished⟩) ∨
    ∃ job ∈ s.busy, event = .finish job ∧
      s' = ⟨s.waiting, s.busy.erase job, s.finished ++ [job]⟩ := by
  cases event with
  | start =>
    simp only [step?] at h
    split at h
    · next job waiting hwaiting =>
      split at h
      · next hidle => exact .inl ⟨job, waiting, rfl, hwaiting, hidle, (Option.some.inj h).symm⟩
      · cases h
    · cases h
  | finish job =>
    simp only [step?] at h
    split at h
    · next hbusy => exact .inr ⟨job, hbusy, rfl, (Option.some.inj h).symm⟩
    · cases h

lemma perm_step {event : Event} (h : s.step? workers event = some s') : s'.jobs.Perm s.jobs := by
  obtain ⟨job, waiting, -, hwaiting, -, rfl⟩ | ⟨job, hbusy, -, rfl⟩ := step?_eq_some h
  · simp only [jobs, hwaiting]
    exact (List.perm_middle.symm).append_left _
  · have hmoved : (job :: s.busy.erase job).Perm s.busy := (List.perm_cons_erase hbusy).symm
    simp only [jobs, List.append_assoc]
    exact (hmoved.append_right s.waiting).append_left _

lemma outstanding_step {event : Event} (h : s.step? workers event = some s') :
    s'.outstanding + 1 = s.outstanding := by
  obtain ⟨job, waiting, -, hwaiting, -, rfl⟩ | ⟨job, hbusy, -, rfl⟩ := step?_eq_some h
  · simp only [outstanding, hwaiting, List.length_cons]
    omega
  · have hpos := List.length_pos_of_mem hbusy
    simp only [outstanding, List.length_erase_of_mem hbusy]
    omega

lemma run?_cons_eq_some {event : Event} {events : List Event} :
    s.run? workers (event :: events) = some s' ↔
      ∃ next, s.step? workers event = some next ∧ next.run? workers events = some s' := by
  simp only [run?, List.foldlM_cons, Option.bind_eq_bind, Option.bind_eq_some_iff]

lemma perm_run {events : List Event} (h : s.run? workers events = some s') :
    s'.jobs.Perm s.jobs := by
  induction events generalizing s with
  | nil =>
    cases h
    exact .refl _
  | cons event events ih =>
    obtain ⟨next, hstep, hrun⟩ := run?_cons_eq_some.mp h
    exact (ih hrun).trans (perm_step hstep)

lemma outstanding_run {events : List Event} (h : s.run? workers events = some s') :
    s'.outstanding + events.length = s.outstanding := by
  induction events generalizing s with
  | nil =>
    cases h
    rfl
  | cons event events ih =>
    obtain ⟨next, hstep, hrun⟩ := run?_cons_eq_some.mp h
    have hhead := outstanding_step hstep
    have htail := ih hrun
    rw [List.length_cons]
    omega

lemma exists_step (hworkers : 0 < workers) (h : s.busy ++ s.waiting ≠ []) :
    ∃ event s', s.step? workers event = some s' := by
  rcases s with ⟨waiting, busy, finished⟩
  cases busy with
  | cons job busy =>
    exact ⟨.finish job, ⟨waiting, busy, finished ++ [job]⟩, by simp [step?]⟩
  | nil =>
    cases waiting with
    | nil => simp at h
    | cons job waiting => exact ⟨.start, ⟨waiting, [job], finished⟩, by simp [step?, hworkers]⟩

lemma mem_finished_of_run {n : Nat} {events : List Event}
    (hrun : (initial n).run? workers events = some s) (hdone : s.busy ++ s.waiting = []) {job : Nat}
    (hjob : job < n) : job ∈ s.finished := by
  have hperm := perm_run hrun
  simp only [jobs, hdone, initial, List.append_nil, List.nil_append] at hperm
  exact hperm.mem_iff.mpr (List.mem_range.mpr hjob)

end State

variable {ε α β : Type} {work : α → Except ε β} {finished : List Nat}

lemma eq_mapM_of_collect {first : Nat} {jobs : List α} {outcome : Except ε (List β)}
    (h : collect work finished first jobs = some outcome) : outcome = jobs.mapM work := by
  induction jobs generalizing first outcome with
  | nil =>
    cases h
    rfl
  | cons job jobs ih =>
    rw [collect] at h
    rw [List.mapM_cons]
    split at h
    · cases hwork : work job with
      | error e =>
        rw [hwork] at h
        cases h
        rfl
      | ok result =>
        rw [hwork] at h
        obtain ⟨rest, hrest, rfl⟩ := Option.map_eq_some_iff.mp h
        rw [ih hrest]
        rfl
    · cases h

lemma collect_of_finished {first : Nat} {jobs : List α}
    (h : ∀ i < jobs.length, first + i ∈ finished) :
    collect work finished first jobs = some (jobs.mapM work) := by
  induction jobs generalizing first with
  | nil => rfl
  | cons job jobs ih =>
    have hhead : first ∈ finished := h 0 (Nat.zero_lt_succ _)
    have htail : ∀ i < jobs.length, first + 1 + i ∈ finished := by
      intro i hi
      have hnext := h (i + 1) (Nat.succ_lt_succ hi)
      rwa [Nat.add_comm i 1, ← Nat.add_assoc] at hnext
    rw [collect, if_pos hhead, ih htail, List.mapM_cons]
    cases work job <;> rfl

lemma filterMap_getElem?_range (results : List β) :
    (List.range results.length).filterMap (results[·]?) = results := by
  induction results with
  | nil => rfl
  | cons result results ih =>
    rw [List.length_cons, List.range_succ_eq_map, List.filterMap_cons_some List.getElem?_cons_zero,
      List.filterMap_map]
    exact congrArg (result :: ·) ih

lemma lookup_finished (work : α → β) {jobs : List α} {order : List Nat} {i : Nat}
    (hi : i < jobs.length) (h : i ∈ order) :
    (order.filterMap fun j => jobs[j]?.map fun job => (j, work job)).lookup i =
      (jobs.map work)[i]? := by
  have hjob : jobs[i]? = some jobs[i] := List.getElem?_eq_getElem hi
  induction order with
  | nil => cases h
  | cons j order ih =>
    by_cases hij : i = j
    · subst hij
      simp [hjob]
    · have hmem : i ∈ order := List.mem_of_ne_of_mem hij h
      rw [← ih hmem]
      cases hj : jobs[j]? with
      | none => simp [hj]
      | some job => simp [hj, List.lookup_cons, beq_false_of_ne hij]

lemma Schedule.results_eq_map {workers : Nat} (work : α → β) (jobs : List α)
    (schedule : Schedule workers jobs.length) : schedule.results work jobs = jobs.map work := by
  have hfound : ∀ i ∈ List.range jobs.length,
      (schedule.order.filterMap fun j => jobs[j]?.map fun job => (j, work job)).lookup i =
        (jobs.map work)[i]? := by
    intro i hi
    have hlt : i < jobs.length := List.mem_range.mp hi
    exact lookup_finished work hlt (State.mem_finished_of_run schedule.runs rfl hlt)
  calc schedule.results work jobs
      = (List.range jobs.length).filterMap ((jobs.map work)[·]?) := List.filterMap_congr hfound
    _ = (List.range (jobs.map work).length).filterMap ((jobs.map work)[·]?) := by
        rw [List.length_map]
    _ = jobs.map work := filterMap_getElem?_range _

end MarketFormula.Pool
