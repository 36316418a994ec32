import Snark.Proofs.System.Evaluation
import Snark.Proofs.Witness.Delivery
import Snark.Witness.Builder

/-!
# Inputs in pieces

Values that are pushed under one name make up one input, however they are cut into pieces and
whatever is pushed between them. A builder holds the names in the order of their first pushes, and a
program gets for each name the integers of its pieces, one piece after the other. So pushes with the
same names in that order, and with the same integers for each name, cannot be told apart: what is
built from them is the same, and so are the calls into the program.
-/

namespace Snark.Witness

/-- Values that are pushed one by one, each under the name of an input. -/
abbrev Pushes := List (Text × Tree)

namespace Pushes

/-- The names in the order of their first pushes. -/
def names (pushes : Pushes) : List Text := (pushes.map Prod.fst).eraseDups

/-- What is pushed under a name, in the order of the pushes. -/
def pieces (pushes : Pushes) (name : Text) : List Tree :=
  (pushes.filter fun push => push.1 = name).map Prod.snd

/-- The integers that are pushed under a name, one piece after the other. -/
def integers (pushes : Pushes) (name : Text) : List Int := (pushes.pieces name).flatMap Tree.values

/-- The inputs that the pushes make up: the pieces of each name in one list. -/
def inputs (pushes : Pushes) : List (Text × Tree) :=
  pushes.names.map fun name => (name, .node (pushes.pieces name))

/-- A name takes its place with its first push. -/
theorem names_concat (pushes : Pushes) (name : Text) (tree : Tree) :
    names (pushes ++ [(name, tree)]) =
      if name ∈ pushes.names then pushes.names else pushes.names ++ [name] := by
  rw [names, List.map_append, List.map_singleton, List.eraseDups_append, List.removeAll, names]
  by_cases known : name ∈ pushes.map Prod.fst
  · rw [if_pos (List.mem_eraseDups.2 known)]
    simp [known]
  · rw [if_neg (mt List.mem_eraseDups.1 known)]
    simp [known, List.eraseDups_cons]

theorem nodup_names (pushes : Pushes) : pushes.names.Nodup := by
  induction pushes using List.reverseRecOn with
  | nil => exact List.nodup_nil
  | append_singleton pushes push ih =>
    rw [names_concat]
    split
    · exact ih
    next fresh =>
      rw [← List.concat_eq_append]
      exact List.Nodup.concat fresh ih

theorem pieces_concat (pushes : Pushes) (name other : Text) (tree : Tree) :
    pieces (pushes ++ [(name, tree)]) other =
      if other = name then pushes.pieces other ++ [tree] else pushes.pieces other := by
  rw [pieces, List.filter_append, List.map_append, pieces]
  split
  next same =>
    simp [same]
  next differs =>
    simp [Ne.symm differs]

/-- Nothing has been pushed under a name that is not among the names. -/
theorem pieces_eq_nil {pushes : Pushes} {name : Text} (h : name ∉ pushes.names) :
    pushes.pieces name = [] := by
  have nothing : pushes.filter (fun push => push.1 = name) = [] := by
    refine List.filter_eq_nil_iff.2 fun push member same => h ?_
    rw [← of_decide_eq_true same]
    exact List.mem_eraseDups.2 (List.mem_map_of_mem member)
  rw [pieces, nothing, List.map_nil]

/-- The inputs have the names in the order of their first pushes, and each has the integers that
are pushed under its name. -/
theorem inputs_values (pushes : Pushes) :
    (pushes.inputs.map fun input => (input.1, input.2.values)) =
      pushes.names.map fun name => (name, pushes.integers name) := by
  rw [inputs, List.map_map]
  refine List.map_congr_left fun name _ => congrArg (Prod.mk name) ?_
  exact Tree.allValues_eq_flatMap _

theorem eraseDups_eq_self {names : List Text} (distinct : names.Nodup) :
    names.eraseDups = names := by
  induction distinct with
  | nil => rfl
  | @cons first names differ _ ih =>
    have others : names.filter (fun name => !name == first) = names := by
      refine List.filter_eq_self.2 fun name member => ?_
      simp [(differ name member).symm]
    rw [List.eraseDups_cons, others, ih]

/-- Where each input is pushed at once, the names are the same. -/
theorem names_inputs (pushes : Pushes) : names pushes.inputs = pushes.names := by
  have keys : pushes.inputs.map Prod.fst = pushes.names := by
    rw [inputs, List.map_map]
    exact List.map_id _
  rw [names, keys, eraseDups_eq_self pushes.nodup_names]

/-- Where each input is pushed at once, it has the same integers. -/
theorem integers_inputs {pushes : Pushes} {name : Text} (known : name ∈ pushes.names) :
    integers pushes.inputs name = pushes.integers name := by
  have once : pushes.names.filter (fun other => other = name) = [name] := by
    rw [List.filter_eq, List.count_eq_one_of_mem pushes.nodup_names known, List.replicate_one]
  have whole : pieces pushes.inputs name = [.node (pushes.pieces name)] := by
    rw [pieces, inputs, List.filter_map]
    change ((pushes.names.filter fun other => other = name).map _).map _ = _
    rw [once]
    rfl
  rw [integers, whole, List.flatMap_singleton, Tree.values, Tree.allValues_eq_flatMap, integers]

end Pushes

namespace Calculator

variable {σ : Type} {k : Calculator σ}

/-- Of the values of the inputs, only the integers reach a program. -/
theorem feed_congr {inputs inputs' : List (Text × Tree)}
    (same : (inputs.map fun input => (input.1, input.2.values)) =
      inputs'.map fun input => (input.1, input.2.values)) (scratch slot : Nat) :
    k.feed scratch slot (toInputs inputs) = k.feed scratch slot (toInputs inputs') := by
  induction inputs generalizing inputs' with
  | nil =>
    rw [List.map_eq_nil_iff.1 same.symm]
  | cons input inputs ih =>
    obtain ⟨input', rest, rfl, first, others⟩ := List.map_eq_cons_iff.1 same.symm
    obtain ⟨name, values⟩ := Prod.mk.inj first
    rw [toInputs, toInputs, List.map_cons, List.map_cons, feed_cons, feed_cons, name, values]
    have tail := ih others.symm
    rw [toInputs, toInputs] at tail
    rw [tail]

theorem witness_congr {inputs inputs' : List (Text × Tree)}
    (same : (inputs.map fun input => (input.1, input.2.values)) =
      inputs'.map fun input => (input.1, input.2.values)) (sanity : Bool) :
    k.witness (toInputs inputs) sanity = k.witness (toInputs inputs') sanity := by
  simp only [witness, run, feed_congr same]

end Calculator

/-- The calculator of the configuration has been made for a program whose memory is one string of
bytes. -/
structure CircuitConfig.IsReady {σ : Type} (config : CircuitConfig σ) (contents : σ → Bytes) :
    Prop where
  acts : config.calculator.sandbox.memory.ActsOn contents
  made : ∃ curve observed checks m n,
    Calculator.make config.calculator.sandbox curve observed checks m = (.ok config.calculator, n)

/-- The configuration with the calculator on the recording sandbox. -/
def CircuitConfig.recording {σ : Type} (config : CircuitConfig σ) : CircuitConfig (Recorded σ) :=
  ⟨config.system, config.calculator.recording, config.sanity⟩

namespace Builder

variable {σ : Type} {contents : σ → Bytes}

/-- The builder to which values have been pushed. -/
def collect (pushes : Pushes) : Builder :=
  pushes.foldl (fun b push => b.push push.1 push.2.toValue) empty

/-- A value is put behind the others of its name, or with a new name behind all others. -/
theorem append_map {names : List Text} (distinct : names.Nodup) (values : Text → List Json.Value)
    {name : Text} (fresh : name ∉ names → values name = []) (v : Json.Value) :
    append name v (names.map fun other => (other, values other)) =
      (if name ∈ names then names else names ++ [name]).map fun other =>
        (other, if other = name then values other ++ [v] else values other) := by
  induction names with
  | nil =>
    rw [List.map_nil, append, if_neg List.not_mem_nil, List.nil_append, List.map_singleton,
      if_pos rfl, fresh List.not_mem_nil, List.nil_append]
  | cons first names ih =>
    obtain ⟨unique, distinct⟩ := List.nodup_cons.1 distinct
    rw [List.map_cons, append]
    by_cases same : first = name
    · rw [if_pos same, if_pos (by simp [same]), List.map_cons, if_pos same]
      refine congrArg _ (List.map_congr_left fun other member => ?_)
      rw [if_neg]
      rintro rfl
      exact unique (same ▸ member)
    · have known : name ∈ first :: names ↔ name ∈ names := by simp [Ne.symm same]
      rw [if_neg same, ih distinct fun new => fresh (mt known.1 new)]
      simp only [known]
      split
      · rw [List.map_cons, if_neg same]
      · rw [List.cons_append, List.map_cons, if_neg same]

/-- A builder holds the pieces of each name, with the names in the order of their first pushes. -/
theorem inputs_collect (pushes : Pushes) :
    (collect pushes).inputs =
      pushes.names.map fun name => (name, (pushes.pieces name).map Tree.toValue) := by
  induction pushes using List.reverseRecOn with
  | nil => rfl
  | append_singleton pushes push ih =>
    have step : (collect (pushes ++ [push])).inputs =
        append push.1 push.2.toValue (collect pushes).inputs := by
      rw [collect, List.foldl_append]
      rfl
    rw [step, ih, append_map (Pushes.nodup_names pushes)
      (fun name => (Pushes.pieces pushes name).map Tree.toValue), Pushes.names_concat]
    · refine List.map_congr_left fun name _ => congrArg (Prod.mk name) ?_
      rw [Pushes.pieces_concat]
      split
      · rw [List.map_append, List.map_singleton]
      · rfl
    · intro new
      rw [Pushes.pieces_eq_nil new, List.map_nil]

theorem toInputs_collect (pushes : Pushes) :
    (collect pushes).toInputs = Witness.toInputs pushes.inputs := by
  rw [toInputs, inputs_collect, Witness.toInputs, Pushes.inputs, List.map_map, List.map_map]
  refine List.map_congr_left fun name _ => congrArg (Prod.mk name) ?_
  rw [Tree.toValue, Tree.toValues_eq_map]

/-- What is built depends on nothing but the names and the integers of each. -/
theorem build_congr {pushes pushes' : Pushes} (names : pushes'.names = pushes.names)
    (integers : ∀ name ∈ pushes.names, pushes'.integers name = pushes.integers name)
    (config : CircuitConfig σ) :
    (collect pushes').build config = (collect pushes).build config := by
  have same : (pushes'.inputs.map fun input => (input.1, input.2.values)) =
      pushes.inputs.map fun input => (input.1, input.2.values) := by
    rw [Pushes.inputs_values, Pushes.inputs_values, names]
    exact List.map_congr_left fun name member => by rw [integers name member]
  rw [build, build, toInputs_collect, toInputs_collect, Calculator.witness_congr same]

section Recording

variable {α β : Type} {s : Slots σ} {inputs : List (Text × Tree)}

/-- What is recorded while something is made from inputs: they are fed to the program, and what is
to be made comes about only where that has come to its end. -/
def Consumed (s : Slots σ) (inputs : List (Text × Tree)) (calls : List (Call σ))
    (outcome : Result α) : Prop :=
  ∃ scratch slot fed, Fed s scratch slot inputs calls fed ∧ ∀ a, outcome = .ok a → fed = .ok ()

/-- The computation makes something from inputs. -/
def Consumes (s : Slots σ) (inputs : List (Text × Tree)) (x : Run (Recorded σ) α) : Prop :=
  x.Traces fun _ calls outcome _ => Consumed s inputs calls outcome

/-- Calls that transfer nothing may come behind. -/
theorem Consumed.extend {calls calls' : List (Call σ)} {outcome : Result α}
    {outcome' : Result β} (h : Consumed s inputs calls outcome) (silent : transfers calls' = [])
    (before : ∀ b, outcome' = .ok b → ∃ a, outcome = .ok a) :
    Consumed s inputs (calls ++ calls') outcome' := by
  obtain ⟨scratch, slot, fed, ⟨delivery, total⟩, done⟩ := h
  refine ⟨scratch, slot, fed, ⟨?_, fun all => total (allSucceed_append.1 all).1⟩, ?_⟩
  · rwa [transfers_append, silent, List.append_nil]
  · intro b returned
    obtain ⟨a, returned⟩ := before b returned
    exact done a returned

namespace Consumes

theorem of_feeds {x : Run (Recorded σ) Unit} {takes : Machine σ → Nat → Nat → Prop}
    (h : Feeds s takes inputs x) : Consumes s inputs x := by
  refine h.mono ?_
  rintro m calls outcome n ⟨scratch, slot, -, fed⟩
  exact ⟨scratch, slot, outcome, fed, fun _ returned => returned⟩

/-- Inputs may be consumed behind a quiet step. -/
theorem behind {x : Run (Recorded σ) α} {f : α → Run (Recorded σ) β} (quiet : x.IsQuiet)
    (rest : ∀ a, Consumes s inputs (f a)) : Consumes s inputs (x >>= f) := by
  refine Run.Traces.bind quiet rest ?_ ?_
  · intro m calls e n failed
    refine ⟨0, 0, .error e, .of_failed failed, ?_⟩
    intro b impossible
    cases impossible
  · rintro m calls a mid calls' outcome n passed ⟨scratch, slot, fed, h, done⟩
    exact ⟨scratch, slot, fed, .append passed h, done⟩

/-- Behind the inputs there may be a silent step. -/
theorem before {x : Run (Recorded σ) α} {f : α → Run (Recorded σ) β} (h : Consumes s inputs x)
    (silent : ∀ a, (f a).IsSilent) : Consumes s inputs (x >>= f) := by
  refine Run.Traces.bind h silent ?_ ?_
  · rintro m calls e n ⟨scratch, slot, fed, h, -⟩
    refine ⟨scratch, slot, fed, h, ?_⟩
    intro b impossible
    cases impossible
  · intro m calls a mid calls' outcome n consumed nothing
    exact consumed.extend nothing fun _ _ => ⟨a, rfl⟩

theorem ensuring {x : Run (Recorded σ) α} {restore : Run (Recorded σ) Unit}
    (h : Consumes s inputs x) (silent : restore.IsSilent) :
    Consumes s inputs (Run.ensuring x restore) := by
  refine Run.Traces.ensuring h silent ?_ ?_
  · intro m calls outcome mid calls' n consumed nothing
    exact consumed.extend nothing fun a returned => ⟨a, returned⟩
  · intro m calls outcome mid calls' e n consumed nothing
    refine consumed.extend nothing ?_
    intro b impossible
    cases impossible

end Consumes

theorem agree_build (b : Builder) (config : CircuitConfig σ) :
    Run.Agree Machine.Records (b.build config.recording) (b.build config) :=
  (config.calculator.agree_recording.witness b.toInputs config.sanity).bind fun _ =>
    .ofResult _

variable {config : CircuitConfig σ}

theorem consumes_build (ready : config.IsReady contents) (pushes : Pushes) :
    Consumes config.calculator.slots pushes.inputs
      ((collect pushes).build config.recording) := by
  obtain ⟨curve, observed, checks, m, n, made⟩ := ready.made
  obtain ⟨-, layout⟩ := Calculator.hasRoom_of_make ready.acts made
  have run := Consumes.of_feeds
    (Calculator.feeds_run ready.acts layout pushes.inputs config.sanity)
  rw [build, toInputs_collect]
  refine Consumes.before ?_ fun values => .ofResult _
  refine Consumes.behind (Calculator.isQuiet_readWord 0) fun start => ?_
  exact (run.before fun _ => Calculator.isSilent_collect).ensuring
    (Calculator.isQuiet_setCursor start).isSilent

end Recording

/-- Values that are pushed in pieces make up the inputs that could have been pushed at once. A
program is fed the names in the order of their first pushes, and for each name the integers that
have been pushed under it, one piece after the other; that is so from any machine, so building again
feeds the same inputs, whatever came of the first time. If the names of other pushes come in the
same order, and each has the same integers, what is built is the same for every program, and so is
what is recorded. -/
theorem build_pushes (pushes : Pushes) (config : CircuitConfig σ) :
    (collect pushes).toInputs = Witness.toInputs pushes.inputs ∧
      (pushes.inputs.map fun input => (input.1, input.2.values)) =
        pushes.names.map (fun name => (name, pushes.integers name)) ∧
      (∀ contents, config.IsReady contents → ∀ m : Machine (Recorded σ),
        let first := (collect pushes).build config.recording m
        let second := (collect pushes).build config.recording first.2
        (first.1, first.2.unrecorded) = (collect pushes).build config m.unrecorded ∧
          ∃ calls again, first.2.calls = m.calls ++ calls ∧
            second.2.calls = m.calls ++ calls ++ again ∧
            Consumed config.calculator.slots pushes.inputs calls first.1 ∧
            Consumed config.calculator.slots pushes.inputs again second.1) ∧
      (collect pushes.inputs).build config = (collect pushes).build config ∧
      ∀ pushes' : Pushes, pushes'.names = pushes.names →
        (∀ name ∈ pushes.names, pushes'.integers name = pushes.integers name) →
          (collect pushes').build config = (collect pushes).build config ∧
            (collect pushes').build config.recording =
              (collect pushes).build config.recording := by
  refine ⟨toInputs_collect pushes, pushes.inputs_values, ?_, ?_, ?_⟩
  · intro contents ready m first second
    obtain ⟨outcome, reached⟩ := agree_build (collect pushes) config m m.unrecorded rfl
    obtain ⟨calls, appended, consumed⟩ := consumes_build ready pushes m
    obtain ⟨again, appended', consumed'⟩ := consumes_build ready pushes first.2
    refine ⟨Prod.ext outcome reached, calls, again, appended, ?_, consumed, consumed'⟩
    rw [← appended]
    exact appended'
  · exact build_congr pushes.names_inputs (fun _ known => Pushes.integers_inputs known) config
  · intro pushes' names integers
    exact ⟨build_congr names integers config, build_congr names integers config.recording⟩

/-- Three integers under two names, in pieces and at once. -/
theorem build_pushes_moveCursor :
    ∃ k, Calculator.make (Sample.sandbox Sample.moveCursor) .bn254 [] false Sample.machine =
        (.ok k, Sample.machine) ∧
      let config : CircuitConfig Memory := ⟨ConstraintSystem.multiplier, k, true⟩
      let pieces : Pushes :=
        [("a", .node [.leaf 3]), ("b", .leaf 5), ("a", .node [.node [], .node [.leaf (-1)]])]
      let whole : Pushes := [("a", .node [.leaf 3, .leaf (-1)]), ("b", .node [.node [.leaf 5]])]
      let recorded := (collect pieces).build config.recording Sample.machine.recording
      (collect pieces).build config = (collect whole).build config ∧
        Consumed k.slots pieces.inputs recorded.2.calls recorded.1 := by
  obtain ⟨k, made⟩ := Sample.exists_make_eq_ok Sample.moveCursor
  obtain ⟨program, -⟩ := Calculator.hasRoom_of_make Sample.access_actsOn made
  refine ⟨k, made, ?_⟩
  intro config pieces whole recorded
  have ready : config.IsReady Memory.contents := by
    refine ⟨?_, .bn254, [], false, Sample.machine, Sample.machine, ?_⟩
    · rw [program]
      exact Sample.access_actsOn
    · rw [program]
      exact made
  obtain ⟨-, -, fed, -⟩ := build_pushes pieces config
  obtain ⟨-, calls, -, appended, -, consumed, -⟩ :=
    fed Memory.contents ready Sample.machine.recording
  obtain rfl : recorded.2.calls = calls := appended.trans (List.nil_append calls)
  obtain ⟨-, -, -, -, same⟩ := build_pushes whole config
  exact ⟨(same pieces (by decide) (by decide)).1, consumed⟩

end Builder

end Snark.Witness
