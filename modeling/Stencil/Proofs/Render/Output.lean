import Stencil.Proofs.Render.Outcome

/-!
# Output without room

An output with limited room takes the writes of a render up to the first one that does not fit.
The render ends right there: nothing is asked of the host any more, and nothing is looked up. The
output has set its reason aside by then, and the directives around the write have pointed an error
of formatting to themselves.

1. `Reaches`: the moments of a render at which something is written.
2. `Eval.Interruptible`: a step that goes the same wherever its writes are taken, and ends at the
   moment of the first write that is refused.
3. `renderBlocks_interruptible`: rendering is such a step.
-/

namespace Stencil

variable {σ : Type}

/-! ## Moments of a render -/

namespace Eval

/-- Doing a step for each item of a list comes to an item after the steps for the items before. -/
inductive ComesTo {α : Type} (step : α → Eval σ Unit) : List α → Run σ → α → Run σ → Prop
  | first (item : α) (items : List α) (run : Run σ) : ComesTo step (item :: items) run item run
  | later {item item' : α} {items : List α} {run run' moment : Run σ}
      (done : step item run = .ok () run') (rest : ComesTo step items run' item' moment) :
      ComesTo step (item :: items) run item' moment

/-- Doing a step for each member that a collection hands out comes to a member, when the host has
just handed it out. -/
inductive PullsTo (step : Value σ → Eval σ Unit) : Pull σ → Run σ → Value σ → Run σ → Prop
  | first (host : σ) (item : Value σ) (next : σ → Pull σ) (run : Run σ) :
      PullsTo step (.member host item next) run item { run with host }
  | later {host : σ} {item item' : Value σ} {next : σ → Pull σ} {run run' moment : Run σ}
      (done : step item { run with host } = .ok () run')
      (rest : PullsTo step (next run'.host) run' item' moment) :
      PullsTo step (.member host item next) run item' moment

/-- Doing a step for each member of a value comes to a member. -/
def MeetsMember (value : Value σ) (step : Value σ → Eval σ Unit) (run : Run σ) (item : Value σ)
    (moment : Run σ) : Prop :=
  match value with
  | .list items => ComesTo step items run item moment
  | .map entries => ∃ name, ComesTo (fun entry => step entry.2) entries run (name, item) moment
  | .collection _ _ pull => PullsTo step (pull run.host) run item moment
  | other => item = other ∧ moment = run

end Eval

/-- Rendering blocks, with so many further levels, comes to a write at a moment of the run. -/
inductive Reaches (setting : Setting σ) :
    Nat → Place σ → List Block → Run σ → Write → Run σ → Prop
  /-- A text is written as it is. -/
  | text {depth : Nat} {place : Place σ} (content : String) (span : Span) (rest : List Block)
      (run : Run σ) :
      Reaches setting depth place (.text content span :: rest) run ⟨.literal, content⟩ run
  /-- A placeholder without a value is written again. -/
  | undefined {depth : Nat} {place : Place σ} {p : Placeholder} {rest : List Block}
      {run moment : Run σ}
      (resolved : (Level.ofDepth setting depth).resolve place.context p.name run = .ok none moment)
      (kept : place.keepUndefined = true) :
      Reaches setting depth place (.placeholder p :: rest) run ⟨.undefined, p.toSource⟩ moment
  /-- A placeholder writes the text of its value. -/
  | value {depth : Nat} {place : Place σ} {p : Placeholder} {rest : List Block}
      {run moment : Run σ} {value : Value σ}
      (resolved : (Level.ofDepth setting depth).resolve place.context p.name run =
        .ok (some value) moment)
      (present : value.isNull = false)
      (ready : (p.recursive && hasTag (p.textOf value).toList) = false) :
      Reaches setting depth place (.placeholder p :: rest) run ⟨.value, p.textOf value⟩ moment
  /-- A recursive placeholder writes while the text of its value is rendered. -/
  | fragment {depth : Nat} {place : Place σ} {p : Placeholder} {rest : List Block}
      {run run' run'' moment : Run σ} {value : Value σ} {program : Program} {write : Write}
      (resolved : (Level.ofDepth setting (depth + 1)).resolve place.context p.name run =
        .ok (some value) run')
      (present : value.isNull = false)
      (tagged : (p.recursive && hasTag (p.textOf value).toList) = true)
      (compiled : Eval.fragment (p.textOf value) run' = .ok program run'')
      (inner : Reaches setting depth { place with source := program.source } program.blocks run''
        write moment) :
      Reaches setting (depth + 1) place (.placeholder p :: rest) run write moment
  /-- A condition without a value writes in its second branch. -/
  | absent {depth : Nat} {place : Place σ} {name : String} {recursive : Bool}
      {yes no rest : List Block} {span : Span} {run run' moment : Run σ} {write : Write}
      (resolved : (Level.ofDepth setting (depth + 1)).resolve place.context name run =
        .ok none run')
      (inner : Reaches setting depth place no run' write moment) :
      Reaches setting (depth + 1) place (.condition name recursive yes no span :: rest) run write
        moment
  /-- A condition writes in the branch that its value selects. -/
  | branch {depth : Nat} {place : Place σ} {name : String} {recursive : Bool}
      {yes no rest : List Block} {span : Span} {run run' run'' moment : Run σ} {value : Value σ}
      {selected : Bool} {write : Write}
      (resolved : (Level.ofDepth setting (depth + 1)).resolve place.context name run =
        .ok (some value) run')
      (held : (Level.ofDepth setting (depth + 1)).holds place.context recursive value run' =
        .ok selected run'')
      (inner : Reaches setting depth place (if selected then yes else no) run'' write moment) :
      Reaches setting (depth + 1) place (.condition name recursive yes no span :: rest) run write
        moment
  /-- An iteration writes in its body, for a member that it comes to. -/
  | body {depth : Nat} {place : Place σ} {name : String} {inner rest : List Block} {span : Span}
      {run run' run'' moment : Run σ} {value item : Value σ} {write : Write}
      (resolved : (Level.ofDepth setting (depth + 1)).resolve place.context name run =
        .ok (some value) run')
      (truthy : value.truthy = true)
      (met : Eval.MeetsMember value
        (fun item => renderBlocks setting depth { place with
          context := ⟨item, Path.item place.context.path name, place.context.root⟩ } inner)
        run' item run'')
      (written : Reaches setting depth { place with
        context := ⟨item, Path.item place.context.path name, place.context.root⟩ } inner run''
        write moment) :
      Reaches setting (depth + 1) place (.iteration name inner span :: rest) run write moment
  /-- What is behind a block is rendered once the block is. -/
  | later {depth : Nat} {place : Place σ} {block : Block} {rest : List Block}
      {run run' moment : Run σ} {write : Write}
      (done : (Level.ofDepth setting depth).block place block run = .ok () run')
      (inner : Reaches setting depth place rest run' write moment) :
      Reaches setting depth place (block :: rest) run write moment

/-! ## Steps that do not write -/

def Run.withSink (run : Run σ) (sink : Sink) : Run σ := { run with sink }

namespace Eval

variable {α β : Type}

/-- The end of a step with its run changed. -/
def changed (change : Run σ → Run σ) :
    EStateM.Result Error (Run σ) α → EStateM.Result Error (Run σ) α
  | .ok result run => .ok result (change run)
  | .error error run => .error error (change run)

/-- A step that leaves the output alone, and goes the same with any output. -/
def Quiet (step : Eval σ α) : Prop :=
  ∀ run sink, step (run.withSink sink) = changed (·.withSink sink) (step run)

theorem quiet_bind {step : Eval σ α} {next : α → Eval σ β} (first : Quiet step)
    (second : ∀ result, Quiet (next result)) : Quiet (step >>= next) := by
  intro run sink
  have same := first run sink
  cases ran : step run with
  | ok result run' =>
    rw [ran] at same
    rw [bind_of_ok ran, bind_of_ok same]
    exact second result run' sink
  | error error run' =>
    rw [ran] at same
    rw [bind_of_error ran, bind_of_error same]
    rfl

theorem quiet_call (compute : σ → Reply σ) : Quiet (call compute) := by
  intro run sink
  unfold call Run.withSink
  dsimp only
  cases compute run.host <;> rfl

theorem quiet_fragment (text : String) : Quiet (fragment text : Eval σ Program) := by
  intro run sink
  unfold fragment Run.withSink
  dsimp only
  cases run.cache.find? text <;> rfl

/-- Whatever is captured does not reach the output. -/
theorem quiet_capture (step : Eval σ Unit) : Quiet (capture step) := by
  intro run sink
  unfold capture Run.withSink
  dsimp only
  cases step { run with sink := .unlimited } <;> rfl

theorem quiet_sequential : Eval.Sequential (fun _ : Value σ => True) fun step _ => Quiet step where
  null := trivial
  text := fun _ => trivial
  item := fun _ _ => trivial
  entry := fun _ _ => trivial
  pure := fun _ _ _ _ => rfl
  bind := fun first second => quiet_bind first fun result => second result fun _ _ => trivial
  note := fun _ _ _ _ => rfl
  call := fun _ => quiet_call _

end Eval

namespace Level

theorem quiet_descend (level : Level σ) : Eval.Quiet level.descend := by
  unfold descend
  cases level.below <;> exact fun _ _ => rfl

/-- Finding a value writes nothing, since templates that stand in for members are captured. -/
theorem quiet_agree (level : Level σ) :
    Agree (fun _ => True) (fun step _ => Eval.Quiet step) level level :=
  ⟨rfl, rfl, fun _ _ _ => trivial, fun _ _ _ _ _ =>
    Eval.quiet_bind level.quiet_descend fun _ => Eval.quiet_capture _⟩

theorem quiet_resolve (level : Level σ) (context : Context σ) (text : String) :
    Eval.Quiet (level.resolve context text) :=
  level.quiet_agree.resolve Eval.quiet_sequential ⟨trivial, trivial⟩ text

theorem quiet_holds (level : Level σ) (context : Context σ) (recursive : Bool) (value : Value σ) :
    Eval.Quiet (level.holds context recursive value) := by
  unfold holds
  split
  · split
    · refine Eval.quiet_bind level.quiet_descend fun _ => ?_
      refine Eval.quiet_bind (Eval.quiet_fragment _) fun _ => ?_
      exact Eval.quiet_bind (Eval.quiet_capture _) fun _ _ _ => rfl
    · exact fun _ _ => rfl
  · exact fun _ _ => rfl

end Level

/-! ## Steps that a full output ends -/

def bytesOf (writes : List Write) : Nat := (textOf writes).utf8ByteSize

theorem textOf_append (front back : List Write) :
    textOf (front ++ back) = textOf front ++ textOf back := by
  rw [textOf, List.map_append, String.join_append]
  rfl

theorem bytesOf_append (front back : List Write) :
    bytesOf (front ++ back) = bytesOf front + bytesOf back := by
  rw [bytesOf, textOf_append, String.utf8ByteSize_append]
  rfl

theorem bytesOf_cons (write : Write) (rest : List Write) :
    bytesOf (write :: rest) = write.text.utf8ByteSize + bytesOf rest := by
  rw [bytesOf, textOf, List.map_cons, String.join_cons, String.utf8ByteSize_append]
  rfl

def Sink.adding (sink : Sink) (writes : List Write) : Sink :=
  { sink with writes := sink.writes ++ writes.toArray }

theorem Sink.adding_nil (sink : Sink) : sink.adding [] = sink := by
  rw [adding, Array.append_empty]

theorem Sink.adding_adding (sink : Sink) (front back : List Write) :
    (sink.adding front).adding back = sink.adding (front ++ back) := by
  rw [adding, adding, adding, ← List.append_toArray, Array.append_assoc]

/-- A run with so much room left in the output. -/
def Run.limited (run : Run σ) (room : Nat) : Run σ :=
  run.withSink { run.sink with room := some room }

/-- A run with so much room left in the output, which has refused a write. -/
def Run.refusing (run : Run σ) (room : Nat) : Run σ :=
  run.withSink { run.sink with room := some room, refusal := some noRoom }

namespace Eval

variable {α β : Type} {comes comes' : Run σ → Write → Run σ → Prop} {run : Run σ}

/-- What a step does with the output. It makes some writes, and comes to each of them at a moment.
It goes the same if there is room for them. If there is no room for one of them, it ends at the
moment of this write, with an error of formatting. -/
structure Puts (step : Eval σ α) (comes : Run σ → Write → Run σ → Prop) (run : Run σ)
    (writes : List Write) : Prop where
  sink : (after step run).sink = run.sink.adding writes
  enough : ∀ left, step (run.limited (bytesOf writes + left)) = changed (·.limited left) (step run)
  refused : ∀ {front write back}, writes = front ++ write :: back →
    ∃ moment, comes run write moment ∧ moment.sink = run.sink.adding front ∧
      ∀ left < write.text.utf8ByteSize, ∃ error, error.cause = .format ∧
        step (run.limited (bytesOf front + left)) = .error error (moment.refusing left)

/-- A step that puts some writes into any output that takes everything. -/
def Interruptible (step : Eval σ α) (comes : Run σ → Write → Run σ → Prop) : Prop :=
  ∀ run, run.sink.room = none → ∃ writes, Puts step comes run writes

theorem Interruptible.mono {step : Eval σ α} (interruptible : Interruptible step comes)
    (weaker : ∀ run write moment, comes run write moment → comes' run write moment) :
    Interruptible step comes' := by
  intro run unlimited
  obtain ⟨writes, puts⟩ := interruptible run unlimited
  refine ⟨writes, puts.sink, puts.enough, fun split => ?_⟩
  obtain ⟨moment, reached, rest⟩ := puts.refused split
  exact ⟨moment, weaker _ _ _ reached, rest⟩

theorem sink_after_of_changed {step : Eval σ α} {sink : Sink}
    {ended : EStateM.Result Error (Run σ) α}
    (same : step run = changed (·.withSink sink) ended) : (after step run).sink = sink := by
  unfold after
  rw [same]
  cases ended <;> rfl

theorem Quiet.sink_after {step : Eval σ α} (quiet : Quiet step) (run : Run σ) :
    (after step run).sink = run.sink :=
  sink_after_of_changed (quiet run run.sink)

/-- A change of the output alone may be made before a step that leaves it alone, or after. -/
theorem Quiet.changed_sink {step : Eval σ α} (quiet : Quiet step) (change : Sink → Sink)
    (run : Run σ) :
    step (run.withSink (change run.sink)) =
      changed (fun ended => ended.withSink (change ended.sink)) (step run) := by
  have kept := quiet.sink_after run
  rw [quiet run]
  cases ran : step run with
  | ok result run' =>
    rw [after_of_ok ran] at kept
    rw [← kept]
    rfl
  | error error run' =>
    rw [after_of_error ran] at kept
    rw [← kept]
    rfl

/-- A step that leaves the output alone makes no writes. -/
theorem Quiet.puts_nil {step : Eval σ α} (quiet : Quiet step) (run : Run σ) :
    Puts step comes run [] := by
  refine ⟨by rw [quiet.sink_after run, Sink.adding_nil], fun left => ?_, fun split => ?_⟩
  · show step (run.limited (0 + left)) = _
    rw [Nat.zero_add]
    exact quiet.changed_sink (fun sink => { sink with room := some left }) run
  · cases (List.nil_eq_append_iff.mp split).2

theorem Quiet.interruptible {step : Eval σ α} (quiet : Quiet step) : Interruptible step comes :=
  fun run _ => ⟨[], quiet.puts_nil run⟩

theorem emit_of_unlimited (origin : Origin) (text : String) (unlimited : run.sink.room = none) :
    emit origin text run = .ok () (run.withSink (run.sink.adding [⟨origin, text⟩])) := by
  unfold emit Sink.put? Sink.adding
  rw [unlimited]
  rfl

theorem emit_of_fits (origin : Origin) (text : String) (run : Run σ) (left : Nat) :
    emit origin text (run.limited (text.utf8ByteSize + left)) =
      .ok () ((run.withSink (run.sink.adding [⟨origin, text⟩])).limited left) := by
  have put : (run.limited (text.utf8ByteSize + left)).sink.put? ⟨origin, text⟩ =
      some { run.sink.adding [⟨origin, text⟩] with room := some left } := by
    show (if text.utf8ByteSize ≤ text.utf8ByteSize + left then _ else none) = _
    rw [if_pos (Nat.le_add_right _ _), Nat.add_sub_cancel_left]
    rfl
  rw [emit, put]
  rfl

theorem emit_of_short (origin : Origin) (text : String) (run : Run σ) {left : Nat}
    (short : left < text.utf8ByteSize) :
    emit origin text (run.limited left) = .error (.ofCause .format) (run.refusing left) := by
  have put : (run.limited left).sink.put? ⟨origin, text⟩ = none := by
    show (if text.utf8ByteSize ≤ left then _ else none) = _
    rw [if_neg (Nat.not_le_of_lt short)]
  rw [emit, put]
  rfl

theorem puts_emit (origin : Origin) (text : String) (unlimited : run.sink.room = none)
    (reached : comes run ⟨origin, text⟩ run) :
    Puts (emit origin text) comes run [⟨origin, text⟩] := by
  have taken := emit_of_unlimited origin text unlimited
  refine ⟨by rw [after_of_ok taken]; rfl, fun left => ?_, fun split => ?_⟩
  · rw [bytesOf_cons, taken]
    exact emit_of_fits origin text run left
  · rcases List.cons_eq_append_iff.mp split with ⟨rfl, same⟩ | ⟨_, _, none_left⟩
    · obtain ⟨rfl, rfl⟩ := List.cons_eq_cons.mp same
      refine ⟨run, reached, run.sink.adding_nil.symm, fun left short => ?_⟩
      refine ⟨.ofCause .format, rfl, ?_⟩
      show emit origin text (run.limited (0 + left)) = _
      rw [Nat.zero_add, emit_of_short origin text run short]
    · cases (List.nil_eq_append_iff.mp none_left).2

/-- Where a step ends at one of its writes, nothing that comes behind it is done. -/
theorem Puts.refused_bind {step : Eval σ α} {writes front back : List Write} {write : Write}
    (puts : Puts step comes run writes) (split : writes = front ++ write :: back)
    (next : α → Eval σ β) :
    ∃ moment, comes run write moment ∧ moment.sink = run.sink.adding front ∧
      ∀ left < write.text.utf8ByteSize, ∃ error, error.cause = .format ∧
        (step >>= next) (run.limited (bytesOf front + left)) =
          .error error (moment.refusing left) := by
  obtain ⟨moment, reached, at_write, stops⟩ := puts.refused split
  refine ⟨moment, reached, at_write, fun left short => ?_⟩
  obtain ⟨error, format, ended⟩ := stops left short
  exact ⟨error, format, Eval.bind_of_error ended next⟩

/-- The next step adds its writes to those of the first one. -/
theorem Puts.bind_of_ok {step : Eval σ α} {next : α → Eval σ β} {result : α} {run' : Run σ}
    {writes writes' : List Write} (puts : Puts step comes run writes)
    (ran : step run = .ok result run') (puts' : Puts (next result) comes' run' writes')
    (weaker : ∀ write moment, comes' run' write moment → comes run write moment) :
    Puts (step >>= next) comes run (writes ++ writes') := by
  have sink : run'.sink = run.sink.adding writes := by
    rw [← puts.sink, after_of_ok ran]
  have enough : ∀ left, step (run.limited (bytesOf writes + left)) =
      .ok result (run'.limited left) := fun left => by rw [puts.enough, ran]; rfl
  refine ⟨?_, fun left => ?_, fun {front write back} split => ?_⟩
  · rw [after_bind_of_ok ran, puts'.sink, sink, Sink.adding_adding]
  · rw [bytesOf_append, Nat.add_assoc, Eval.bind_of_ok (enough _), Eval.bind_of_ok ran,
      puts'.enough]
  · have inSecond : ∀ middle, front = writes ++ middle → writes' = middle ++ write :: back →
        ∃ moment, comes run write moment ∧ moment.sink = run.sink.adding front ∧
          ∀ left < write.text.utf8ByteSize, ∃ error, error.cause = .format ∧
            (step >>= next) (run.limited (bytesOf front + left)) =
              .error error (moment.refusing left) := by
      rintro middle rfl split'
      obtain ⟨moment, reached, at_write, stops⟩ := puts'.refused split'
      refine ⟨moment, weaker _ _ reached, ?_, fun left short => ?_⟩
      · rw [at_write, sink, Sink.adding_adding]
      · obtain ⟨error, format, ended⟩ := stops left short
        refine ⟨error, format, ?_⟩
        rw [bytesOf_append, Nat.add_assoc, Eval.bind_of_ok (enough _), ended]
    rcases List.append_eq_append_iff.mp split with ⟨middle, same, rest⟩ | ⟨middle, same, rest⟩
    · exact inSecond middle same rest
    · rcases List.cons_eq_append_iff.mp rest with ⟨rfl, rest⟩ | ⟨middle, rfl, -⟩
      · exact inSecond [] (by rw [same, List.append_nil, List.append_nil]) rest.symm
      · exact puts.refused_bind same next

theorem Puts.bind_of_error {step : Eval σ α} {next : α → Eval σ β} {error : Error}
    {run' : Run σ} {writes : List Write} (puts : Puts step comes run writes)
    (ran : step run = .error error run') : Puts (step >>= next) comes run writes := by
  refine ⟨?_, fun left => ?_, fun split => puts.refused_bind split next⟩
  · rw [after_bind_of_error ran, ← puts.sink, after_of_error ran]
  · have ended : step (run.limited (bytesOf writes + left)) =
        .error error (run'.limited left) := by
      rw [puts.enough, ran]
      rfl
    rw [Eval.bind_of_error ended, Eval.bind_of_error ran]
    rfl

theorem Interruptible.bind {step : Eval σ α} {next : α → Eval σ β}
    (first : Interruptible step comes)
    (second : ∀ result, Interruptible (next result) fun run' write moment =>
      ∀ run, step run = .ok result run' → comes run write moment) :
    Interruptible (step >>= next) comes := by
  intro run unlimited
  obtain ⟨writes, puts⟩ := first run unlimited
  cases ran : step run with
  | ok result run' =>
    have sink : run'.sink = run.sink.adding writes := by rw [← puts.sink, after_of_ok ran]
    obtain ⟨writes', puts'⟩ := second result run' (by rw [sink]; exact unlimited)
    exact ⟨writes ++ writes', puts.bind_of_ok ran puts' fun _ _ reached => reached run ran⟩
  | error error run' => exact ⟨writes, puts.bind_of_error ran⟩

theorem interruptible_emit {origin : Origin} {text : String}
    (reached : ∀ run, comes run ⟨origin, text⟩ run) :
    Interruptible (emit origin text : Eval σ Unit) comes :=
  fun run unlimited => ⟨_, puts_emit origin text unlimited (reached run)⟩

/-- A directive around a write that is refused is where the error of formatting points to, unless it
points somewhere already. -/
theorem Interruptible.locate (source : String) (span : Span) {step : Eval σ α}
    (interruptible : Interruptible step comes) : Interruptible (locate source span step) comes := by
  intro run unlimited
  obtain ⟨writes, puts⟩ := interruptible run unlimited
  refine ⟨writes, ?_, fun left => ?_, fun split => ?_⟩
  · rw [after_locate, puts.sink]
  · unfold Eval.locate
    rw [puts.enough]
    cases step run <;> rfl
  · obtain ⟨moment, reached, at_write, stops⟩ := puts.refused split
    refine ⟨moment, reached, at_write, fun left short => ?_⟩
    obtain ⟨error, format, ended⟩ := stops left short
    refine ⟨error.locate source span, by rw [Error.cause_locate, format], ?_⟩
    rw [Eval.locate, ended]

/-- Doing a step for each item of a list ends in the step for one of them. -/
theorem Interruptible.forM {step : α → Eval σ Unit} {each : α → Run σ → Write → Run σ → Prop}
    (interruptible : ∀ item, Interruptible (step item) (each item)) (items : List α) :
    Interruptible (items.forM step) fun run write moment =>
      ∃ item run', ComesTo step items run item run' ∧ each item run' write moment := by
  induction items with
  | nil => exact Quiet.interruptible fun _ _ => rfl
  | cons item items ih =>
    have first : Interruptible (step item) fun run write moment => ∃ item' run',
        ComesTo step (item :: items) run item' run' ∧ each item' run' write moment :=
      (interruptible item).mono fun run write moment reached =>
        ⟨item, run, .first item items run, reached⟩
    refine first.bind fun _ => ih.mono fun run' write moment reached run done => ?_
    obtain ⟨item', run'', rest, reached⟩ := reached
    exact ⟨item', run'', .later done rest, reached⟩

/-- What is done next may depend on the host's state. -/
theorem Interruptible.of_host (steps : σ → Eval σ α)
    (each : ∀ host, Interruptible (steps host) fun run write moment =>
      run.host = host → comes run write moment) :
    Interruptible (get >>= fun run => steps run.host) comes := by
  intro run unlimited
  obtain ⟨writes, puts⟩ := each run.host run unlimited
  refine ⟨writes, puts.sink, puts.enough, fun split => ?_⟩
  obtain ⟨moment, reached, rest⟩ := puts.refused split
  exact ⟨moment, reached rfl, rest⟩

theorem Interruptible.forEachPulled {step : Value σ → Eval σ Unit}
    {each : Value σ → Run σ → Write → Run σ → Prop}
    (interruptible : ∀ item, Interruptible (step item) (each item)) : (pull : Pull σ) →
    Interruptible (forEachPulled step pull) fun run write moment =>
      ∃ item run', PullsTo step pull run item run' ∧ each item run' write moment
  | .done host => Quiet.interruptible fun _ _ => rfl
  | .failure host error => Quiet.interruptible fun _ _ => rfl
  | .member host item next => by
    rw [forEachPulled_member]
    have handed : Quiet (modify fun run => { run with host } : Eval σ Unit) := fun _ _ => rfl
    refine handed.interruptible.bind fun _ => ?_
    refine Interruptible.bind ((interruptible item).mono ?_) fun _ =>
      .of_host (fun host' => Eval.forEachPulled step (next host')) fun host' => ?_
    · rintro _ write moment reached run ⟨⟩
      exact ⟨item, _, .first host item next run, reached⟩
    · refine (forEachPulled interruptible (next host')).mono ?_
      rintro run'' write moment ⟨item', run', rest, reached⟩ rfl _ done run ⟨⟩
      exact ⟨item', run', .later done rest, reached⟩

theorem Interruptible.forEachMember {step : Value σ → Eval σ Unit}
    {each : Value σ → Run σ → Write → Run σ → Prop}
    (interruptible : ∀ item, Interruptible (step item) (each item)) (value : Value σ) :
    Interruptible (forEachMember value step) fun run write moment =>
      ∃ item run', MeetsMember value step run item run' ∧ each item run' write moment := by
  cases value with
  | list items => exact Interruptible.forM interruptible items
  | map entries =>
    refine (Interruptible.forM (fun entry => interruptible entry.2) entries).mono ?_
    rintro run write moment ⟨⟨name, item⟩, run', met, reached⟩
    exact ⟨item, run', ⟨name, met⟩, reached⟩
  | collection id kind pull =>
    refine Interruptible.of_host (fun host => Eval.forEachPulled step (pull host)) fun host => ?_
    refine (Interruptible.forEachPulled interruptible (pull host)).mono ?_
    rintro run write moment reached rfl
    exact reached
  | _ =>
    refine (interruptible _).mono fun run write moment reached => ?_
    exact ⟨_, run, ⟨rfl, rfl⟩, reached⟩

end Eval

/-! ## Rendering -/

namespace Level

open Eval

variable {setting : Setting σ} {depth : Nat} {place : Place σ}
  {comes : Run σ → Write → Run σ → Prop}

/-- What is done one level further down counts, if that level may be opened. -/
theorem interruptible_descend {next : Body σ → Eval σ Unit}
    (below : ∀ depth', depth = depth' + 1 →
      Interruptible (next (renderBlocks setting depth')) comes) :
    Interruptible ((ofDepth setting depth).descend >>= next) comes := by
  cases depth with
  | zero =>
    rw [descend_bind_zero]
    exact Quiet.interruptible fun _ _ => rfl
  | succ depth =>
    rw [descend_bind_succ]
    exact below depth rfl

section

variable (below : ∀ depth', depth = depth' + 1 → ∀ (place : Place σ) (blocks : List Block),
  Interruptible (renderBlocks setting depth' place blocks) (Reaches setting depth' place blocks))
include below

theorem interruptible_write (p : Placeholder) (rest : List Block) {value : Value σ}
    (present : value.isNull = false) :
    Interruptible ((ofDepth setting depth).write place p value) fun run' write moment => ∀ run,
      (ofDepth setting depth).resolve place.context p.name run = .ok (some value) run' →
      Reaches setting depth place (.placeholder p :: rest) run write moment := by
  unfold Level.write
  split
  · next tagged =>
    refine interruptible_descend fun depth' deeper => ?_
    subst deeper
    refine (quiet_fragment _).interruptible.bind fun program => (below _ rfl _ _).mono ?_
    exact fun _ _ _ inner _ compiled _ resolved =>
      .fragment resolved present tagged compiled inner
  · next ready =>
    exact interruptible_emit fun _ _ resolved =>
      .value resolved present (Bool.eq_false_iff.mpr ready)

theorem interruptible_placeholder (p : Placeholder) (rest : List Block) :
    Interruptible ((ofDepth setting depth).placeholder place p)
      (Reaches setting depth place (.placeholder p :: rest)) := by
  rw [placeholder_eq]
  refine (quiet_resolve _ _ _).interruptible.bind fun found => ?_
  cases found with
  | none =>
    dsimp only
    split
    · next kept => exact interruptible_emit fun _ _ resolved => .undefined resolved kept
    · exact Quiet.interruptible fun _ _ => rfl
  | some value =>
    dsimp only
    split
    · exact Quiet.interruptible fun _ _ => rfl
    · next present => exact interruptible_write below p rest (Bool.eq_false_iff.mpr present)

theorem interruptible_branch (blocks : List Block) {comes : Run σ → Write → Run σ → Prop}
    (weaker : ∀ depth', depth = depth' + 1 → ∀ run write moment,
      Reaches setting depth' place blocks run write moment → comes run write moment) :
    Interruptible ((ofDepth setting depth).branch place blocks) comes := by
  unfold Level.branch
  split
  · exact Quiet.interruptible fun _ _ => rfl
  · refine interruptible_descend fun depth' deeper => ?_
    exact (below _ deeper _ _).mono (weaker depth' deeper)

theorem interruptible_condition (name : String) (recursive : Bool) (yes no : List Block)
    (span : Span) (rest : List Block) :
    Interruptible ((ofDepth setting depth).condition place name recursive yes no)
      (Reaches setting depth place (.condition name recursive yes no span :: rest)) := by
  rw [condition_eq, decision, bind_assoc]
  refine (quiet_resolve _ _ _).interruptible.bind fun found => ?_
  cases found with
  | none =>
    refine interruptible_branch below no fun depth' deeper _ _ _ inner _ resolved => ?_
    subst deeper
    exact .absent resolved inner
  | some value =>
    refine (quiet_holds _ _ _ _).interruptible.bind fun selected => interruptible_branch below _ ?_
    intro depth' deeper run'' write moment inner run' held run resolved
    subst deeper
    exact .branch resolved held inner

theorem interruptible_iteration (name : String) (inner : List Block) (span : Span)
    (rest : List Block) :
    Interruptible ((ofDepth setting depth).iteration place name inner)
      (Reaches setting depth place (.iteration name inner span :: rest)) := by
  refine (quiet_resolve _ _ _).interruptible.bind fun found => ?_
  cases found with
  | none => exact Quiet.interruptible fun _ _ => rfl
  | some value =>
    show Interruptible (if (value.truthy && !inner.isEmpty) = true then _ else _) _
    split
    · next opened =>
      refine interruptible_descend fun depth' deeper => ?_
      subst deeper
      refine (Interruptible.forEachMember (fun item => below _ rfl _ _) value).mono ?_
      rintro run' write moment ⟨item, run'', met, written⟩ run resolved
      exact .body resolved (Bool.and_eq_true_iff.mp opened).1 met written
    · exact Quiet.interruptible fun _ _ => rfl

theorem interruptible_block (block : Block) (rest : List Block) :
    Interruptible ((ofDepth setting depth).block place block)
      (Reaches setting depth place (block :: rest)) := by
  cases block with
  | text content span => exact interruptible_emit fun run => .text content span rest run
  | placeholder p => exact (interruptible_placeholder below p rest).locate _ _
  | condition name recursive yes no span =>
    exact (interruptible_condition below name recursive yes no span rest).locate _ _
  | iteration name inner span =>
    exact (interruptible_iteration below name inner span rest).locate _ _

theorem interruptible_forM_block (blocks : List Block) :
    Interruptible (blocks.forM ((ofDepth setting depth).block place))
      (Reaches setting depth place blocks) := by
  induction blocks with
  | nil => exact Quiet.interruptible fun _ _ => rfl
  | cons block rest ih =>
    refine (interruptible_block below block rest).bind fun _ => ?_
    exact ih.mono fun _ _ _ inner _ done => .later done inner

end

end Level

/-- Rendering ends where the output refuses a write. -/
theorem renderBlocks_interruptible (setting : Setting σ) (depth : Nat) (place : Place σ)
    (blocks : List Block) :
    Eval.Interruptible (renderBlocks setting depth place blocks)
      (Reaches setting depth place blocks) := by
  induction depth using Nat.strongRecOn generalizing place blocks with
  | ind depth ih =>
    rw [renderBlocks_eq]
    exact Level.interruptible_forM_block (fun depth' deeper => ih depth' (by omega)) blocks

end Stencil
