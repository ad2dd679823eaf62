import Stencil.Proofs.Render.Output

/-!
# Writers with limited room

What a render leaves in its output was written at some moments of it. This is so for a text and for
a writer of any size, and the errors of the writer are kept apart from all others.

1. `Engine.reaches_of_mem_writes`: whatever is in the output was written at a moment of the render.
2. `Engine.refusal_of_run`: a run that fails for another cause was refused nothing.
3. `Engine.exists_render_of_refused`: a render that is refused a write, told from its moment.
4. `Engine.render_limited`: renders to a text and to a limited writer, told from the render to a
   writer that takes everything.
-/

namespace Stencil

variable {σ : Type}

/-- Writes that do not fit have a first one that does not. -/
theorem exists_refused {writes : List Write} {room : Nat} (short : room < bytesOf writes) :
    ∃ front write back left, writes = front ++ write :: back ∧ room = bytesOf front + left ∧
      left < write.text.utf8ByteSize := by
  induction writes generalizing room with
  | nil => exact absurd short (Nat.not_lt_zero _)
  | cons write rest ih =>
    rcases Nat.lt_or_ge room write.text.utf8ByteSize with refused | fits
    · exact ⟨[], write, rest, room, rfl, (Nat.zero_add room).symm, refused⟩
    · obtain ⟨later, rfl⟩ := Nat.exists_eq_add_of_le fits
      rw [bytesOf_cons] at short
      obtain ⟨front, other, back, left, rfl, rfl, refused⟩ := ih (Nat.lt_of_add_lt_add_left short)
      refine ⟨write :: front, other, back, left, rfl, ?_, refused⟩
      rw [bytesOf_cons, Nat.add_assoc]

/-! ## What is in the output -/

namespace Eval.Puts

variable {α : Type} {step : Eval σ α} {comes : Run σ → Write → Run σ → Prop} {run : Run σ}
  {writes : List Write}

/-- Every write is come to. -/
theorem comes_of_mem (puts : Puts step comes run writes) {write : Write} (mem : write ∈ writes) :
    ∃ moment, comes run write moment := by
  obtain ⟨front, back, split⟩ := List.append_of_mem mem
  obtain ⟨moment, reached, _⟩ := puts.refused split
  exact ⟨moment, reached⟩

/-- An output with limited room holds a front part of the writes. -/
theorem exists_limited (puts : Puts step comes run writes) (room : Nat) :
    ∃ front, front <+: writes ∧ (after step (run.limited room)).sink.writes =
      run.sink.writes ++ front.toArray := by
  rcases Nat.lt_or_ge room (bytesOf writes) with short | fits
  · obtain ⟨front, write, back, left, split, rfl, refused⟩ := exists_refused short
    obtain ⟨moment, _, at_write, stops⟩ := puts.refused split
    obtain ⟨error, _, ended⟩ := stops left refused
    refine ⟨front, ⟨write :: back, split.symm⟩, ?_⟩
    rw [after_of_error ended]
    exact congrArg Sink.writes at_write
  · obtain ⟨left, rfl⟩ := Nat.exists_eq_add_of_le fits
    refine ⟨writes, List.prefix_rfl, ?_⟩
    have all := congrArg Sink.writes puts.sink
    unfold after at all ⊢
    rw [puts.enough]
    cases ran : step run <;> rw [ran] at all <;> exact all

end Eval.Puts

namespace Engine

/-- A render with room for everything comes to a write at a moment of its run. -/
def Reaches (engine : Engine σ) (job : Job σ) (host : σ) (write : Write) (moment : Run σ) : Prop :=
  ∃ data host', job.prepared host = .ok data host' ∧
    Stencil.Reaches (engine.setting job) (engine.setting job).maxDepth
      ⟨job.program.source, job.keepUndefined, job.start data⟩ job.program.blocks
      (engine.begin .text host') write moment

theorem writes_begin_adding (engine : Engine σ) (target : Target) (host : σ)
    (writes : List Write) :
    ((engine.begin target host).sink.adding writes).writes.toList = writes := by
  cases target <;> simp [Sink.adding, begin, Target.sink, Sink.unlimited]

/-- A run makes some writes, and comes to each of them at a moment. -/
theorem exists_puts (engine : Engine σ) (job : Job σ) (context : Context σ) (host : σ) :
    ∃ writes, Eval.Puts (engine.run job context)
      (Stencil.Reaches (engine.setting job) (engine.setting job).maxDepth
        ⟨job.program.source, job.keepUndefined, context⟩ job.program.blocks)
      (engine.begin .text host) writes :=
  renderBlocks_interruptible _ _ _ _ _ rfl

/-- Whatever is in the output, of any size, was written at a moment of the render. -/
theorem reaches_of_mem_writes (engine : Engine σ) {job : Job σ} {target : Target} {host : σ}
    {write : Write} (mem : write ∈ (engine.render job target host).writes) :
    ∃ moment, engine.Reaches job host write moment := by
  cases ready : job.prepared host with
  | error error host' =>
    rw [engine.render_of_error target ready] at mem
    cases mem
  | ok data host' =>
    obtain ⟨writes, puts⟩ := engine.exists_puts job (job.start data) host'
    suffices write ∈ writes by
      obtain ⟨moment, reached⟩ := puts.comes_of_mem this
      exact ⟨moment, data, host', ready, reached⟩
    rw [engine.render_of_ok target ready, writes_outcome] at mem
    match target with
    | .text | .writer none =>
      rw [← engine.writes_begin_adding .text host' writes]
      exact congrArg (·.writes.toList) puts.sink ▸ mem
    | .writer (some room) =>
      obtain ⟨front, among, held⟩ := puts.exists_limited room
      have begun : engine.begin (.writer (some room)) host' =
          (engine.begin .text host').limited room := rfl
      rw [begun, held] at mem
      exact among.subset (by simpa [begin, Target.sink, Sink.unlimited] using mem)

/-! ## The errors of a writer -/

theorem outcome_of_accepted (engine : Engine σ) {target target' : Target}
    {ended : EStateM.Result Error (Run σ) Unit}
    (accepted : ∀ error run, ended = .error error run → run.sink.refusal = none) :
    engine.outcome target ended = engine.outcome target' ended := by
  cases ended with
  | ok _ run => rfl
  | error error run =>
    have none_refused := accepted error run rfl
    rw [outcome, outcome, target.error_of_accepted none_refused,
      target'.error_of_accepted none_refused]

theorem outcome_limited (engine : Engine σ) (target : Target) (left : Nat)
    (ended : EStateM.Result Error (Run σ) Unit) :
    engine.outcome target (Eval.changed (·.limited left) ended) = engine.outcome target ended := by
  cases target <;> cases ended <;> rfl

/-- An output that takes everything sets no reason aside. -/
theorem refusal_of_unlimited (engine : Engine σ) (job : Job σ) {context : Context σ} {host : σ}
    {error : Error} {moment : Run σ}
    (ended : engine.run job context (engine.begin .text host) = .error error moment) :
    moment.sink.refusal = none := by
  obtain ⟨writes, puts⟩ := engine.exists_puts job context host
  rw [← Eval.after_of_error ended]
  exact congrArg Sink.refusal puts.sink

/-- No reason is set aside in a run that fails for another cause than formatting. -/
theorem refusal_of_run (engine : Engine σ) (job : Job σ) {context : Context σ} {target : Target}
    {host : σ} {error : Error} {moment : Run σ}
    (ended : engine.run job context (engine.begin target host) = .error error moment)
    (other : error.cause ≠ .format) : moment.sink.refusal = none := by
  match target with
  | .text | .writer none => exact engine.refusal_of_unlimited job ended
  | .writer (some room) =>
    obtain ⟨writes, puts⟩ := engine.exists_puts job context host
    have begun : engine.begin (.writer (some room)) host =
        (engine.begin .text host).limited room := rfl
    rw [begun] at ended
    rcases Nat.lt_or_ge room (bytesOf writes) with short | fits
    · obtain ⟨front, write, back, left, split, rfl, refused⟩ := exists_refused short
      obtain ⟨_, _, _, stops⟩ := puts.refused split
      obtain ⟨_, format, ended'⟩ := stops left refused
      cases ended.symm.trans ended'
      exact absurd format other
    · obtain ⟨left, rfl⟩ := Nat.exists_eq_add_of_le fits
      rw [puts.enough, Eval.changed.eq_def] at ended
      split at ended
      · cases ended
      · next ran =>
        cases ended
        exact (engine.refusal_of_unlimited job ran :)

/-! ## Texts and writers -/

/-- A writer that takes everything gets what a text gets. -/
theorem render_text (engine : Engine σ) (job : Job σ) (host : σ) :
    engine.render job .text host = engine.render job (.writer none) host := by
  cases ready : job.prepared host with
  | error error host' => rw [engine.render_of_error _ ready, engine.render_of_error _ ready]
  | ok data host' =>
    rw [engine.render_of_ok .text ready, engine.render_of_ok (.writer none) ready]
    exact engine.outcome_of_accepted fun _ _ ended => engine.refusal_of_unlimited job ended

section

variable {engine : Engine σ} {job : Job σ} {host host' : σ} {data : Value σ} {writes : List Write}
  (ready : job.prepared host = .ok data host')
  (puts : Eval.Puts (engine.run job (job.start data))
    (Stencil.Reaches (engine.setting job) (engine.setting job).maxDepth
      ⟨job.program.source, job.keepUndefined, job.start data⟩ job.program.blocks)
    (engine.begin .text host') writes)
include ready puts

theorem writes_render_unlimited : (engine.render job (.writer none) host).writes = writes := by
  rw [engine.render_of_ok (.writer none) ready, writes_outcome]
  exact (congrArg (·.writes.toList) puts.sink).trans
    (engine.writes_begin_adding .text host' writes)

theorem render_of_enough (left : Nat) :
    engine.render job (.writer (some (bytesOf writes + left))) host =
      engine.render job (.writer none) host := by
  rw [engine.render_of_ok _ ready, engine.render_of_ok (.writer none) ready]
  exact (congrArg (engine.outcome _) (puts.enough left)).trans
    (engine.outcome_limited (.writer none) left _)

/-- The writer's own error takes the place of the error of formatting that the run ended with. -/
theorem exists_render_of_refused {front back : List Write} {write : Write}
    (split : writes = front ++ write :: back) {left : Nat}
    (refused : left < write.text.utf8ByteSize) :
    ∃ moment, engine.Reaches job host write moment ∧ moment.sink.writes.toList = front ∧
      engine.render job (.writer (some (bytesOf front + left))) host =
        ⟨.error ⟨.io noRoom, none⟩, front, moment.notices.toList,
          { engine with cache := moment.cache }, moment.host⟩ := by
  obtain ⟨moment, reached, at_write, stops⟩ := puts.refused split
  obtain ⟨error, -, ended⟩ := stops left refused
  have held : moment.sink.writes.toList = front := by
    rw [at_write]
    exact engine.writes_begin_adding .text host' front
  refine ⟨moment, ⟨data, host', ready, reached⟩, held, ?_⟩
  subst held
  exact (engine.render_of_ok _ ready).trans (congrArg (engine.outcome (.writer none)) ended)

end

/-- Texts and writers of any size agree. Told from the render to a writer that takes everything, the
text of a render is that of its writes, unless the render fails. With room for all its writes it is
the same. Otherwise the writer holds the writes before the first one that does not fit, and the
render ends with the writer's own error, which points nowhere, at the moment of this write: the
host, the notices and the fragments are those of that moment. -/
theorem render_limited (engine : Engine σ) (job : Job σ) (room : Nat) (host : σ) :
    let full := engine.render job (.writer none) host
    let limited := engine.render job (.writer (some room)) host
    (engine.render job .text host).text = full.result.map (fun () => textOf full.writes) ∧
      (full.written.utf8ByteSize ≤ room → limited = full) ∧
      (room < full.written.utf8ByteSize → ∃ front write back,
        full.writes = front ++ write :: back ∧
        (textOf front).utf8ByteSize ≤ room ∧ room < (textOf (front ++ [write])).utf8ByteSize ∧
        limited.writes = front ∧ limited.result = .error ⟨.io noRoom, none⟩ ∧
        ∃ moment, engine.Reaches job host write moment ∧ moment.sink.writes.toList = front ∧
          limited.host = moment.host ∧ limited.notices = moment.notices.toList ∧
          limited.engine = { engine with cache := moment.cache }) := by
  intro full limited
  have text_same : (engine.render job .text host).text =
      full.result.map (fun () => textOf full.writes) := by
    rw [engine.render_text]
    rfl
  refine ⟨text_same, ?_⟩
  cases ready : job.prepared host with
  | error error host' =>
    have full_eq : full = _ := engine.render_of_error (.writer none) ready
    have limited_eq : limited = _ := engine.render_of_error (.writer (some room)) ready
    refine ⟨fun _ => limited_eq.trans full_eq.symm, fun short => ?_⟩
    rw [full_eq] at short
    exact absurd short (Nat.not_lt_zero _)
  | ok data host' =>
    obtain ⟨writes, puts⟩ := engine.exists_puts job (job.start data) host'
    have wrote : full.writes = writes := writes_render_unlimited ready puts
    have bytes : full.written.utf8ByteSize = bytesOf writes := by
      rw [Outcome.written, wrote, bytesOf]
    rw [bytes, wrote]
    constructor
    · intro fits
      obtain ⟨left, rfl⟩ := Nat.exists_eq_add_of_le fits
      exact render_of_enough ready puts left
    · intro short
      obtain ⟨front, write, back, left, split, rfl, refused⟩ := exists_refused short
      obtain ⟨moment, reached, held, stopped⟩ := exists_render_of_refused ready puts split refused
      have stopped : limited = _ := stopped
      have short : bytesOf front + left < bytesOf (front ++ [write]) := by
        rw [bytesOf_append, bytesOf_cons]
        exact Nat.add_lt_add_left (Nat.lt_of_lt_of_le refused (Nat.le_add_right _ _)) _
      rw [stopped]
      exact ⟨front, write, back, split, Nat.le_add_right _ _, short, rfl, rfl, moment, reached,
        held, rfl, rfl, rfl⟩

/-- The host counts how often it is called. There is room for the first member only, and the value
in the third one is never called. -/
example :
    let member : Value Nat :=
      .map [("n", .computed 0 fun calls => .value (calls + 1) (.text "ab"))]
    let program := (Program.compile
      "\x7b\x7bforeach m\x7d\x7d\x7b\x7bn\x7d\x7d\x7b\x7bend\x7d\x7d").value
    let job : Job Nat :=
      ⟨program, .map [("m", .list [member, member, member])], false, none, false, none⟩
    let full := Engine.new.render job .text 0
    let limited := Engine.new.render job (.writer (some 3)) 0
    (full.written, full.host) = ("ababab", 3) ∧ (limited.written, limited.host) = ("ab", 2) := by
  decide +kernel

end Engine

end Stencil
