import Mathlib.Algebra.Order.Field.Rat
import Mathlib.Data.Nat.Cast.Order.Ring
import Mathlib.Tactic.Linarith
import Mathlib.Tactic.NormNum
import Mathlib.Tactic.Ring
import NodeProvisioner.Proofs.World.Waiting
import NodeProvisioner.Settings

/-! How a wait spends its time. The pauses between its looks grow and vary, but none goes past the
deadline, and each of them lasts for half the first delay or up to the deadline, so that only so
many looks fit in. -/
namespace NodeProvisioner

def Call.span : Call → Nat
  | .circumstance (.pause span _) => span
  | _ => 0

/-- What the clock shows after these calls. Only pauses move it on. -/
def Trace.clock (t : Trace) : Nat := (t.map (·.call.span)).sum

@[simp] theorem Trace.clock_append (t t' : Trace) : clock (t ++ t') = clock t + clock t' := by
  simp [clock]

theorem Jitter.le_two_mul_scale (j : Jitter) {least delay : Nat} (heven : 2 ∣ least)
    (h : least ≤ delay) : least ≤ 2 * j.scale delay := by
  obtain ⟨half, rfl⟩ := heven
  have hden : 0 < j.den := by
    have hlt := j.lt_three_halves
    omega
  have hscale : half ≤ j.scale delay := by
    unfold scale
    rw [Nat.le_div_iff_mul_le hden]
    calc half * j.den ≤ half * (2 * j.num) := Nat.mul_le_mul_left half j.half_le
      _ = 2 * half * j.num := by ring
      _ ≤ delay * j.num := Nat.mul_le_mul_right j.num h
  omega

/-! ### Delays -/

namespace Patience

/-- The delay after `n` pauses, before jitter. -/
def delay (p : Patience) (n : Nat) : Nat := p.grow^[n] p.initial

theorem delay_succ (p : Patience) (n : Nat) : p.delay (n + 1) = p.grow (p.delay n) :=
  Function.iterate_succ_apply' _ _ _

/-- Half of the first delay is a whole span, and the later ones are not shorter. -/
structure Steady (p : Patience) : Prop where
  pos : 0 < p.initial
  even : 2 ∣ p.initial
  le_limit : p.initial ≤ p.limit

theorem Steady.le_grow {p : Patience} (h : p.Steady) {delay : Nat} (hdelay : p.initial ≤ delay) :
    p.initial ≤ p.grow delay := by
  have hlimit := h.le_limit
  unfold grow
  omega

theorem Steady.le_delay {p : Patience} (h : p.Steady) (n : Nat) : p.initial ≤ p.delay n := by
  induction n with
  | zero => exact Nat.le_refl _
  | succ n ih =>
    rw [delay_succ]
    exact h.le_grow ih

end Patience

namespace Settings

theorem taskPatience_steady (s : Settings) : s.taskPatience.Steady := by
  constructor <;> simp only [taskPatience, Span.second] <;> omega

theorem taskPatience_delay (s : Settings) (n : Nat) : (s.taskPatience.delay n : ℚ) =
    min ((s.taskPatience.initial : ℚ) * (3 / 2) ^ n) s.taskPatience.limit := by
  -- The first delay can be halved three times, and from the fourth pause on there is the limit.
  obtain ⟨part, hinitial⟩ : ∃ part, s.taskPatience.initial = 8 * part :=
    ⟨max s.taskPollSecs.toNat 1 * 125000000, by simp only [taskPatience, Span.second]; ring⟩
  have hlimit : s.taskPatience.limit = 32 * part := by
    have h : s.taskPatience.limit = s.taskPatience.initial * 4 := rfl
    omega
  have hgrow (delay : Nat) : s.taskPatience.grow delay = min (delay * 3 / 2) (32 * part) := by
    rw [Patience.grow, hlimit]
  have h0 : s.taskPatience.delay 0 = 8 * part := hinitial
  have h1 : s.taskPatience.delay 1 = 12 * part := by rw [Patience.delay_succ, hgrow, h0]; omega
  have h2 : s.taskPatience.delay 2 = 18 * part := by rw [Patience.delay_succ, hgrow, h1]; omega
  have h3 : s.taskPatience.delay 3 = 27 * part := by rw [Patience.delay_succ, hgrow, h2]; omega
  have hrest (n : Nat) : s.taskPatience.delay (n + 4) = 32 * part := by
    induction n with
    | zero => rw [Patience.delay_succ, hgrow, h3]; omega
    | succ n ih => rw [Nat.add_right_comm, Patience.delay_succ, hgrow, ih]; omega
  have hpart : (0 : ℚ) ≤ part := Nat.cast_nonneg part
  rw [hinitial, hlimit]
  match n with
  | 0 => rw [h0, min_eq_left] <;> push_cast <;> linarith
  | 1 => rw [h1, min_eq_left] <;> push_cast <;> linarith
  | 2 => rw [h2, min_eq_left] <;> push_cast <;> linarith
  | 3 => rw [h3, min_eq_left] <;> push_cast <;> linarith
  | n + 4 =>
    have hpow : (1 : ℚ) ≤ (3 / 2) ^ n := one_le_pow₀ (by norm_num)
    have hgrown : (part : ℚ) ≤ part * (3 / 2) ^ n := le_mul_of_one_le_right hpart hpow
    rw [hrest, min_eq_right]
    push_cast
    rw [pow_add]
    linarith

end Settings

/-! ### Courses -/

namespace Waiting
variable {α : Type}

theorem elapsed_le_clock (heeds : Bool) (rounds : List Round) :
    elapsed rounds ≤ Trace.clock (rounds.flatMap (Round.trace heeds)) := by
  induction rounds with
  | nil => exact Nat.le_refl _
  | cons round rest ih =>
    have hround : Trace.clock (round.trace heeds) = Trace.clock round.calls + round.span := by
      simp [Round.trace, Trace.clock, Call.span]
    rw [List.flatMap_cons, Trace.clock_append, hround, elapsed]
    omega

theorem Pause.inTime {p : Patience} {elapsed delay span : Nat} {jitter : Jitter}
    (h : Pause p elapsed delay jitter span) : elapsed + span ≤ p.timeout := by
  have hearly := h.early
  have hspan := h.span_eq
  have hnap := nap_le jitter delay (p.timeout - elapsed)
  omega

theorem Ending.eq_ok {p : Patience} {operation : String} {heeds : Bool} {elapsed delay : Nat}
    {a : α} {after : Trace} {r : Except Fault α}
    (h : Ending p operation heeds elapsed delay (.ok (some a)) after r) : r = .ok a := by
  cases h
  rfl

section paced
variable {p : Patience} {look : Job (Option α)} {rounds : List Round} {start delay : Nat}

theorem Paced.of_append {before rest : List Round} (h : Paced p look start delay (before ++ rest)) :
    Paced p look (start + elapsed before) (p.grow^[before.length] delay) rest := by
  induction before generalizing start delay with
  | nil => exact h
  | cons round before ih =>
    have hrest := ih h.2.2
    rwa [Nat.add_assoc] at hrest

theorem Paced.unfinished (h : Paced p look start delay rounds) :
    ∀ round ∈ rounds, look.run.Yields round.calls (.ok none) := by
  induction rounds generalizing start delay with
  | nil => exact List.forall_mem_nil _
  | cons round rest ih => exact List.forall_mem_cons.2 ⟨h.1, ih h.2.2⟩

theorem Paced.inTime (h : Paced p look start delay rounds) (hstart : start ≤ p.timeout) :
    start + elapsed rounds ≤ p.timeout := by
  induction rounds generalizing start delay with
  | nil => exact hstart
  | cons round rest ih =>
    have hrest := ih h.2.2 h.2.1.inTime
    rwa [Nat.add_assoc] at hrest

/-- A pause that falls short of half the first delay is the last one. -/
theorem Paced.few (hp : p.Steady) (h : Paced p look start delay rounds)
    (hdelay : p.initial ≤ delay) :
    rounds.length * p.initial < 2 * (p.timeout - start) + p.initial := by
  have hpos := hp.pos
  induction rounds generalizing start delay with
  | nil => simp only [List.length_nil]; omega
  | cons round rest ih =>
    obtain ⟨-, hpause, hrest⟩ := h
    have hlength : (round :: rest).length * p.initial = rest.length * p.initial + p.initial := by
      rw [List.length_cons, Nat.succ_mul]
    have hearly := hpause.early
    have hspan := hpause.span_eq
    unfold nap at hspan
    have hscale := round.jitter.le_two_mul_scale hp.even hdelay
    rcases Nat.lt_or_ge (start + round.span) p.timeout with hleft | hover
    · have hih := ih hrest (hp.le_grow hdelay)
      omega
    · cases rest with
      | nil => simp only [List.length_nil] at hlength; omega
      | cons next _ =>
        have hnext := hrest.2.1.early
        omega

end paced

/-! ### Bounds -/

theorem nap_eq {p : Patience} (hp : p.Steady) {delay : Nat} (hdelay : p.initial ≤ delay)
    (jitter : Jitter) (left : Nat) : nap jitter delay left = min (jitter.scale delay) left := by
  have hpos := hp.pos
  have hscale := jitter.le_two_mul_scale hp.even hdelay
  unfold nap
  omega

/-- From a moment on, every look finds the operation finished. -/
def FinishedFrom (answer : Trace → (c : Call) → c.Reply) (look : Job (Option α)) (moment : Nat) :
    Prop :=
  ∀ past, moment ≤ Trace.clock past → ∃ a, (look.run.play answer past).2 = .ok (some a)

def Uncut (answer : Trace → (c : Call) → c.Reply) (heeds : Bool) : Prop :=
  ∀ past span, answer past (.circumstance (.pause span heeds)) = false

/-- A wait that keeps to its bounds. -/
structure Course.Bounded (p : Patience) (operation : String) (heeds : Bool)
    (look : Job (Option α)) (answer : Trace → (c : Call) → c.Reply) (c : Course α)
    (r : Except Fault α) : Prop where
  /-- The looks before the last one find nothing; the last one may be the only one. -/
  unfinished : ∀ round ∈ c.rounds, look.run.Yields round.calls (.ok none)
  looked : look.run.Yields c.last c.found
  /-- No pause is begun at the deadline or goes past it. -/
  paused : ∀ before round after, c.rounds = before ++ round :: after →
    Pause p (elapsed before) (p.delay before.length) round.jitter round.span
  inTime : elapsed c.rounds ≤ p.timeout
  few : c.rounds.length * p.initial < 2 * p.timeout + p.initial
  /-- Only what the last look has found decides, and at the deadline that it has found nothing. -/
  ended : Ending p operation heeds (elapsed c.rounds) (p.delay c.rounds.length) c.found c.after r
  /-- What is finished by the deadline is found, unless a look fails or a pause is cut short. -/
  seen : ∀ moment ≤ p.timeout, FinishedFrom answer look moment → Uncut answer heeds →
    c.found ≠ .ok none

section goes
variable {p : Patience} {operation : String} {heeds : Bool} {look : Job (Option α)}
  {answer : Trace → (c : Call) → c.Reply} {c : Course α} {r : Except Fault α}

theorem Course.Goes.seen (h : c.Goes p operation heeds look 0 p.initial r)
    (hanswers : Trace.AnsweredBy answer [] (c.trace heeds)) {moment : Nat}
    (hmoment : moment ≤ p.timeout) (hfinished : FinishedFrom answer look moment)
    (huncut : Uncut answer heeds) : c.found ≠ .ok none := by
  obtain ⟨-, htail⟩ := Trace.answeredBy_append.1 hanswers
  obtain ⟨hlast, hafter⟩ := Trace.answeredBy_append.1 htail
  have hended := h.ended
  intro hnone
  rw [hnone] at hended
  generalize c.after = after at hended hafter
  cases hended with
  | timedOut hlate =>
    -- By the clock of the replies it is not earlier than by the pauses of the wait alone.
    have hclock := elapsed_le_clock heeds c.rounds
    obtain ⟨a, ha⟩ := hfinished ([] ++ c.rounds.flatMap (Round.trace heeds)) (by simp; omega)
    rw [h.looked.play_eq hlast, hnone] at ha
    cases ha
  | cancelled _ =>
    have hcut := hafter.2.1
    rw [huncut] at hcut
    cases hcut

theorem Course.Goes.bounded (hp : p.Steady) (h : c.Goes p operation heeds look 0 p.initial r)
    (hanswers : Trace.AnsweredBy answer [] (c.trace heeds)) :
    c.Bounded p operation heeds look answer r where
  unfinished := h.paced.unfinished
  looked := h.looked
  paused before round after heq := by
    have hpaced := h.paced
    rw [heq] at hpaced
    have hpause := hpaced.of_append.2.1
    rwa [Nat.zero_add] at hpause
  inTime := by
    have htime := h.paced.inTime (Nat.zero_le _)
    rwa [Nat.zero_add] at htime
  few := h.paced.few hp (Nat.le_refl _)
  ended := by
    have hended := h.ended
    rwa [Nat.zero_add] at hended
  seen _ hmoment hfinished huncut := h.seen hanswers hmoment hfinished huncut

end goes

theorem untilFinished_goes {p : Patience} (hp : p.Steady) (operation : String) (heeds : Bool)
    (look : Job (Option α)) (answer : Trace → (c : Call) → c.Reply) :
    let run := (untilFinished p operation heeds look).run.play answer []
    ∃ c : Course α, run.1 = c.trace heeds ∧ c.Bounded p operation heeds look answer run.2 := by
  intro run
  have hanswers := Plan.answeredBy_play answer [] (untilFinished p operation heeds look).run
  obtain ⟨c, htrace, hgoes⟩ := lookFrom_goes p operation heeds look 0 p.initial _ _
    (Plan.yields_play answer [] (untilFinished p operation heeds look).run)
  rw [htrace] at hanswers
  exact ⟨c, htrace, hgoes.bounded hp hanswers⟩

end Waiting

/-! ### Tasks -/

def Event.stopped? : Event → Option TaskStatus
  | ⟨.hypervisor _ (.taskStatus _ _), .ok status⟩ => if status.isFinished then some status else none
  | _ => none

theorem Event.stopped?_finished {e : Event} {status : TaskStatus}
    (h : e.stopped? = some status) : status.running = false := by
  unfold stopped? at h
  split at h
  · split at h
    · next hfinished =>
      cases h
      simpa [TaskStatus.isFinished] using hfinished
    · cases h
  · cases h

/-- The first status that tells of a stop tells of success. -/
def Trace.Succeeds (t : Trace) : Prop :=
  ∃ status, t.findSome? Event.stopped? = some status ∧ status.exit = some "OK"

namespace Task
variable {p : Patience} {heeds : Bool} {region zone : String} {task : TaskId}

theorem look_stopped {t : Trace} {found : Except Fault (Option TaskStatus)}
    (h : (look region zone task).run.Yields t found) :
    t.findSome? Event.stopped? = found.toOption.join := by
  obtain ⟨answer, rfl, rfl⟩ := look_ensures _ _ h
  cases answer with
  | error e => rfl
  | ok status => simp [Event.stopped?, Except.map, Except.toOption]

theorem play_look (answer : Trace → (c : Call) → c.Reply) (past : Trace) :
    (look region zone task).run.play answer past =
      let reply := answer past (.hypervisor region (.taskStatus zone task))
      ([⟨.hypervisor region (.taskStatus zone task), reply⟩],
        reply.map fun status => if status.isFinished then some status else none) := by
  have hanswers := Plan.answeredBy_play answer past (look region zone task).run
  obtain ⟨reply, htrace, hresult⟩ := look_ensures _ _ (Plan.yields_play answer past _)
  rw [htrace] at hanswers
  have hreply : reply = answer past (.hypervisor region (.taskStatus zone task)) := hanswers.1
  subst hreply
  exact Prod.ext htrace hresult

theorem finish_stopped : (finish p heeds region zone task).Ensures fun t r =>
    t.findSome? Event.stopped? = r.toOption := by
  refine (Waiting.lookFrom_goes _ _ _ _ _ _).mono ?_
  rintro _ r ⟨c, rfl, hgoes⟩
  have hrounds : (c.rounds.flatMap (Waiting.Round.trace heeds)).findSome? Event.stopped? =
      none := by
    rw [List.findSome?_eq_none_iff]
    intro e he
    obtain ⟨round, hround, hmem⟩ := List.mem_flatMap.1 he
    have hlook := look_stopped (hgoes.paced.unfinished round hround)
    rcases List.mem_append.1 hmem with hcall | hpause
    · exact List.findSome?_eq_none_iff.1 hlook e hcall
    · simp only [List.mem_cons, List.not_mem_nil, or_false] at hpause
      rcases hpause with rfl | rfl <;> rfl
  have hlast := look_stopped hgoes.looked
  have hended := hgoes.ended
  rw [Waiting.Course.trace, List.findSome?_append, hrounds, List.findSome?_append, hlast]
  generalize c.found = found at hended
  generalize c.after = after at hended
  cases hended <;> rfl

/-- The calls of a wait for a task, and what it found in the end. -/
structure Watched (p : Patience) (heeds : Bool) (region zone : String) (task : TaskId) (t : Trace)
    (found : Except Fault TaskStatus) : Prop where
  course : ∃ c : Waiting.Course TaskStatus, t = c.trace heeds ∧
    c.Goes p (operation task) heeds (look region zone task) 0 p.initial found
  waits : ∀ e ∈ t, e.call.Waits region zone task
  /-- No status but the last one tells of a stop. -/
  stopped : t.findSome? Event.stopped? = found.toOption
  looked : ∀ status, found = .ok status →
    t.getLast? = some ⟨.hypervisor region (.taskStatus zone task), .ok status⟩

theorem finish_watched : (finish p heeds region zone task).Ensures
    (Watched p heeds region zone task) :=
  fun t r h => ⟨Waiting.lookFrom_goes _ _ _ _ _ _ t r h, finish_waits t r h,
    finish_stopped t r h, finish_looked t r h⟩

theorem succeed_watched : (succeed p heeds region zone task).Ensures fun t r =>
    ∃ found, Watched p heeds region zone task t found ∧
      (r = .ok () ↔ ∃ status, found = .ok status ∧ status.exit = some "OK") := by
  refine finish_watched.bind (fun t status h => ?_) fun t e h => ⟨.error e, h, by simp⟩
  obtain ⟨e, -, he⟩ := List.exists_of_findSome?_eq_some h.stopped
  have hsuccess : status.isSuccess = true ↔ status.exit = some "OK" := by
    simp [TaskStatus.isSuccess, Event.stopped?_finished he]
  split
  · next hok =>
    refine (Job.ensures_pure _ _).2 ⟨.ok status, by simpa using h, ?_⟩
    simpa using hsuccess.1 hok
  · next hbad =>
    refine (Job.ensures_fail _ _).2 ⟨.ok status, by simpa using h, ?_⟩
    simpa using mt hsuccess.2 hbad

theorem Watched.succeeds_iff {t : Trace} {found : Except Fault TaskStatus}
    (h : Watched p heeds region zone task t found) :
    t.Succeeds ↔ ∃ status, found = .ok status ∧ status.exit = some "OK" := by
  rw [Trace.Succeeds, h.stopped]
  cases found <;> simp [Except.toOption]

theorem Watched.awaited_iff {t : Trace} {found : Except Fault TaskStatus}
    (h : Watched p heeds region zone task t found) :
    Awaited region zone task t ↔ ∃ status, found = .ok status ∧ status.exit = some "OK" := by
  constructor
  · intro hawaited
    have hlast := hawaited.succeeded
    have hstopped := h.stopped
    cases found with
    | error e =>
      have hnone := List.findSome?_eq_none_iff.1 hstopped _ (List.mem_of_getLast? hlast)
      cases hnone
    | ok status =>
      rw [h.looked status rfl] at hlast
      cases hlast
      exact ⟨_, rfl, rfl⟩
  · rintro ⟨status, rfl, hexit⟩
    obtain ⟨e, -, he⟩ := List.exists_of_findSome?_eq_some h.stopped
    have hstatus : status = { running := false, exit := some "OK" } :=
      eq_of_isSuccess (by simp [TaskStatus.isSuccess, Event.stopped?_finished he, hexit])
    exact ⟨hstatus ▸ h.looked status rfl, h.waits⟩

/-- A look is answered that the task runs until a moment, and has then stopped with the exit status
`OK`. -/
def StopsAt (answer : Trace → (c : Call) → c.Reply) (region zone : String) (task : TaskId)
    (moment : Nat) : Prop :=
  ∀ past, answer past (.hypervisor region (.taskStatus zone task)) =
    .ok (if moment ≤ Trace.clock past then { exit := some "OK" } else { running := true })

/-- What a wait that keeps to its bounds has found of a task that stops by the deadline, be it at
the deadline itself. -/
theorem found_of_stopsAt {answer : Trace → (c : Call) → c.Reply} {moment : Nat}
    {c : Waiting.Course TaskStatus} {found : Except Fault TaskStatus}
    (hc : c.Bounded p (operation task) heeds (look region zone task) answer found)
    (hanswers : Trace.AnsweredBy answer [] (c.trace heeds)) (hmoment : moment ≤ p.timeout)
    (hstops : StopsAt answer region zone task moment) (huncut : Waiting.Uncut answer heeds) :
    found = .ok { exit := some "OK" } := by
  have hlook (past : Trace) : ((look region zone task).run.play answer past).2 =
      .ok (if moment ≤ past.clock then some { exit := some "OK" } else none) := by
    rw [play_look, hstops past]
    simp only [Except.map]
    split <;> rfl
  have hseen := hc.seen moment hmoment (fun past hpast => ⟨_, by rw [hlook, if_pos hpast]⟩) huncut
  rw [Waiting.Course.trace, Trace.answeredBy_append, Trace.answeredBy_append] at hanswers
  have hfound := hlook ([] ++ c.rounds.flatMap (Waiting.Round.trace heeds))
  rw [hc.looked.play_eq hanswers.2.1] at hfound
  dsimp only at hfound
  split at hfound
  · have hended := hc.ended
    rw [hfound] at hended
    exact hended.eq_ok
  · exact absurd hfound hseen

theorem succeed_bounded (hp : p.Steady) (heeds : Bool) (region zone : String) (task : TaskId)
    (answer : Trace → (c : Call) → c.Reply) :
    let run := (succeed p heeds region zone task).run.play answer []
    (run.2 = .ok () ↔ run.1.Succeeds) ∧
    (∃ (c : Waiting.Course TaskStatus) (found : Except Fault TaskStatus), run.1 = c.trace heeds ∧
      c.Bounded p (operation task) heeds (look region zone task) answer found ∧
      (run.2 = .ok () ↔ ∃ status, found = .ok status ∧ status.exit = some "OK")) ∧
    ∀ moment ≤ p.timeout, StopsAt answer region zone task moment →
      Waiting.Uncut answer heeds → run.2 = .ok () := by
  intro run
  have hanswers : Trace.AnsweredBy answer [] run.1 := Plan.answeredBy_play answer [] _
  obtain ⟨found, hwatched, hok⟩ := succeed_watched _ _ (Plan.yields_play answer []
    (succeed p heeds region zone task).run)
  obtain ⟨c, htrace, hgoes⟩ := hwatched.course
  have hrun : run.1 = c.trace heeds := htrace
  rw [hrun] at hanswers
  have hbounded := hgoes.bounded hp hanswers
  refine ⟨hok.trans hwatched.succeeds_iff.symm, ⟨c, found, htrace, hbounded, hok⟩, ?_⟩
  intro moment hmoment hstops huncut
  have hfound := found_of_stopsAt hbounded hanswers hmoment hstops huncut
  exact hok.2 ⟨_, hfound, rfl⟩

end Task

/-- Every wait for a task, and every other one with this patience, keeps to its bounds. Its delays
are exact and long enough for a pause to be cut by nothing but the deadline. A wait for a task looks
at the task, the first status that tells of a stop decides, and a task that succeeds by the deadline
is waited for with success. -/
theorem Settings.taskPatience_bounded (s : Settings) (heeds : Bool) :
    (∀ {α : Type} (operation : String) (look : Job (Option α))
        (answer : Trace → (c : Call) → c.Reply),
      let run := (Waiting.untilFinished s.taskPatience operation heeds look).run.play answer []
      ∃ c : Waiting.Course α, run.1 = c.trace heeds ∧
        c.Bounded s.taskPatience operation heeds look answer run.2) ∧
    (∀ n, (s.taskPatience.delay n : ℚ) =
        min ((s.taskPatience.initial : ℚ) * (3 / 2) ^ n) s.taskPatience.limit ∧
      ∀ (jitter : Jitter) (left : Nat), Waiting.nap jitter (s.taskPatience.delay n) left =
        min (jitter.scale (s.taskPatience.delay n)) left) ∧
    ∀ (region zone : String) (task : TaskId) (answer : Trace → (c : Call) → c.Reply),
      let run := (Task.succeed s.taskPatience heeds region zone task).run.play answer []
      (run.2 = .ok () ↔
        ∃ status, run.1.findSome? Event.stopped? = some status ∧ status.exit = some "OK") ∧
      (∃ (c : Waiting.Course TaskStatus) (found : Except Fault TaskStatus),
        run.1 = c.trace heeds ∧ c.Bounded s.taskPatience ("task " ++ task) heeds
          (Task.look region zone task) answer found ∧
        (run.2 = .ok () ↔ ∃ status, found = .ok status ∧ status.exit = some "OK")) ∧
      ∀ moment ≤ s.taskPatience.timeout, Task.StopsAt answer region zone task moment →
        Waiting.Uncut answer heeds → run.2 = .ok () := by
  have hsteady := s.taskPatience_steady
  refine ⟨?_, ?_, ?_⟩
  · intro α operation look answer
    exact Waiting.untilFinished_goes hsteady operation heeds look answer
  · intro n
    exact ⟨s.taskPatience_delay n, Waiting.nap_eq hsteady (hsteady.le_delay n)⟩
  · exact Task.succeed_bounded hsteady heeds

end NodeProvisioner
