import CodeSessions.Proofs.Service.Completion

/-!
# Bursts — submissions that come at one time

The submissions of a burst are all there before the first of their jobs starts.

- `submitAll_run` and `completeAll_run` are the two halves of a burst,
- `burst_run`: a burst is a run, which leaves nothing under way and gives every submission a reply.
-/

namespace CodeSessions
namespace Flow

variable {f : Flow}

/-- The reply to a submission that has led nowhere. -/
def refusal? : Except Reply Nat → Option Reply
  | .error reply => some reply
  | .ok _ => none

/-- Every submission becomes a job that waits, or is refused. -/
theorem submitAll_run (f : Flow) (now : Instant) (submissions : List Submission) :
    ∃ events jobs, Run f events (f.submitAll now submissions).1 ∧
      (f.submitAll now submissions).1.jobs = f.jobs ++ jobs ∧
      (∀ job ∈ jobs, job.phase = .waiting) ∧
      (f.submitAll now submissions).2.filterMap Except.toOption = jobs.map Job.number ∧
      (f.submitAll now submissions).2.length = submissions.length ∧
      events.filterMap Event.reply? = (f.submitAll now submissions).2.filterMap refusal? := by
  induction submissions generalizing f with
  | nil => exact ⟨[], [], .nil, by simp [submitAll], by simp, rfl, rfl, rfl⟩
  | cons submission submissions ih =>
      rcases hsubmit : f.submit now submission with ⟨g, reply | n⟩
      · -- what is refused leaves the flow as it is
        rcases ih g with ⟨events, jobs, hrun, hjobs, hwaiting, hnumbers, hlength, hreplies⟩
        have hsame : g = f := submit_error hsubmit
        refine ⟨.refused now submission reply :: events, jobs, ?_, ?_, hwaiting, ?_, ?_, ?_⟩ <;>
          simp only [submitAll, hsubmit]
        · exact .cons (.refuse hsubmit) hrun
        · exact hjobs.trans (by rw [hsame])
        · exact hnumbers
        · exact congrArg (· + 1) hlength
        · exact congrArg (reply :: ·) hreplies
      · -- what is accepted is the job behind those that are there
        rcases submit_ok hsubmit with ⟨t, _, rfl, hg⟩
        rcases ih g with ⟨events, jobs, hrun, hjobs, hwaiting, hnumbers, hlength, hreplies⟩
        refine ⟨.submitted f.nextNumber now submission :: events, f.enrolled now t :: jobs, ?_, ?_,
          List.forall_mem_cons.mpr ⟨rfl, hwaiting⟩, ?_, ?_, ?_⟩ <;> simp only [submitAll, hsubmit]
        · exact .cons (.submit hsubmit) hrun
        · rw [hjobs, hg, List.append_assoc, List.singleton_append]
        · exact congrArg (f.nextNumber :: ·) hnumbers
        · exact congrArg (· + 1) hlength
        · exact hreplies

/-- Where all jobs wait, none of them stands in the way of another. -/
theorem isLocked_of_waiting (hwaiting : ∀ job ∈ f.jobs, job.phase = .waiting) (e : EnvironmentId) :
    f.isLocked e = false := by
  refine List.any_eq_false.mpr fun job hmem => ?_
  simp [Job.isRunningOn, hwaiting job hmem]

theorem WellFormed.jobs_drop_head (h : f.WellFormed) {job : Job} {jobs : List Job}
    (hqueue : f.jobs = job :: jobs) : (f.drop job.number).jobs = jobs := by
  have hnumbers := h.numbers
  simp only [hqueue, List.map_cons, List.nodup_cons, List.mem_map, not_exists, not_and] at hnumbers
  simpa [Flow.drop, hqueue] using hnumbers.1

/-- The jobs of a queue in which all wait are completed one after the other.  The replies are those
to the submissions that led nowhere, and those of the run. -/
theorem completeAll_run (h : f.WellFormed) (hwaiting : ∀ job ∈ f.jobs, job.phase = .waiting)
    {tickets : List (Except Reply Nat)}
    (htickets : tickets.filterMap Except.toOption = f.jobs.map Job.number) :
    ∃ events, Run f events (f.completeAll tickets).1 ∧ (f.completeAll tickets).1.jobs = [] ∧
      (f.completeAll tickets).2.length = tickets.length ∧
      (f.completeAll tickets).2.Perm
        (tickets.filterMap refusal? ++ events.filterMap Event.reply?) := by
  induction tickets generalizing f with
  | nil => exact ⟨[], .nil, List.map_eq_nil_iff.mp htickets.symm, rfl, .nil⟩
  | cons ticket tickets ih =>
      rcases ticket with reply | n
      · rcases ih h hwaiting htickets with ⟨events, hrun, hjobs, hlength, hreplies⟩
        exact ⟨events, hrun, hjobs, congrArg (· + 1) hlength, hreplies.cons reply⟩
      · -- the first of the jobs is completed, and leaves the others
        rcases hqueue : f.jobs with _ | ⟨job, jobs⟩
        · simp [hqueue, Except.toOption] at htickets
        · have hnumbers : n = job.number ∧
              tickets.filterMap Except.toOption = jobs.map Job.number := by
            simpa [hqueue, Except.toOption] using htickets
          rcases hnumbers with ⟨rfl, hrest⟩
          have hmem : job ∈ f.jobs := by simp [hqueue]
          have hfree := isLocked_of_waiting hwaiting job.routed.environment
          rcases runsTo_complete h hmem (hwaiting job hmem) hfree with ⟨hruns, hsome⟩
          rcases hruns.run with ⟨before, hbefore, _, _, hreply⟩
          have hg : (f.complete job.number).1.jobs = jobs :=
            hruns.jobs.trans (h.jobs_drop_head hqueue)
          have hstill : ∀ other ∈ (f.complete job.number).1.jobs, other.phase = .waiting := by
            intro other hother
            exact hwaiting other (by simp [hqueue, hg ▸ hother])
          rcases ih (h.run hbefore) hstill (hg ▸ hrest) with
            ⟨after, hafter, hjobs, hlength, hreplies⟩
          rcases Option.ne_none_iff_exists'.mp hsome with ⟨reply, hcomplete⟩
          refine ⟨before ++ after, hbefore.append hafter, hjobs, ?_, ?_⟩
          · simp [completeAll, hcomplete, hlength]
          · have hrefused : (Except.ok job.number :: tickets).filterMap refusal? =
                tickets.filterMap refusal? := rfl
            have hperm := (hreplies.cons reply).trans List.perm_middle.symm
            simpa [completeAll, hcomplete, hreply, hrefused] using hperm

/-- A burst is a run of the flow, after which nothing is under way.  Every submission has a reply,
and the replies are those that the run gives. -/
theorem burst_run (h : f.WellFormed) (hjobs : f.jobs = []) (now : Instant)
    (submission : Submission) (n : Nat) :
    ∃ events, Run f events (f.burst now submission n).1 ∧ (f.burst now submission n).1.jobs = [] ∧
      (f.burst now submission n).2.length = n ∧
      (f.burst now submission n).2.Perm (events.filterMap Event.reply?) := by
  rcases submitAll_run f now (List.replicate n submission) with
    ⟨before, jobs, hbefore, hqueue, hwaiting, hnumbers, hlength, hrefused⟩
  have hall : (f.submitAll now (List.replicate n submission)).1.jobs = jobs := by
    rw [hqueue, hjobs, List.nil_append]
  rcases completeAll_run (h.run hbefore) (hall ▸ hwaiting) (hall ▸ hnumbers) with
    ⟨after, hafter, hdone, hreplies, hperm⟩
  refine ⟨before ++ after, hbefore.append hafter, hdone, ?_, ?_⟩
  · exact hreplies.trans (hlength.trans List.length_replicate)
  · rw [List.filterMap_append, hrefused]
    exact hperm

end Flow
end CodeSessions
