import MovAsm.Emitter

/-!
# Emitters One After the Other

Lists that are offered one after the other are offered like one long list: the consumer is asked
about the same elements in the same order, up to the first that it declines. So it does not matter
how emitters are grouped before they are concatenated, to whatever depth.

What a consumer is asked shows only in what it does to its state. To make it visible for any
consumer, the consumer is made to keep a record beside its state.

## Main definitions

* `Consumer.recording` — a consumer that also keeps a record of what it is asked;
* `Emitter.Offered` — which elements a consumer was asked about, and what came of it;
* `Emitter.Nest` — emitters that are grouped to any depth.

## Main results

* `ofList_append`: a list in two parts.
* `concat_map_ofList`: a list in many parts.
* `offered_ofList`: a list is offered up to the first element that is declined.
* `concat_splice`: a group of emitters in place of the emitters themselves.
* `concat_until_declined`: all that there is to know about emitters one after the other.
-/

namespace MovAsm

variable {α σ : Type}

/-! ### Consumers -/

namespace Consumer

/-- The state of a consumer after it was asked about some `elements`, whatever it has answered. -/
def after (consumer : Consumer α σ) (state : σ) (elements : List α) : σ :=
  elements.foldl (fun state a => (consumer a state).1) state

/-- A consumer that answers like `consumer`, and also keeps a record of the elements that it is
asked about. -/
def recording (consumer : Consumer α σ) : Consumer α (List α × σ) := fun a record =>
  ((record.1 ++ [a], (consumer a record.2).1), (consumer a record.2).2)

@[simp] theorem after_nil (consumer : Consumer α σ) (state : σ) : consumer.after state [] = state :=
  rfl

@[simp] theorem after_cons (consumer : Consumer α σ) (state : σ) (a : α) (rest : List α) :
    consumer.after state (a :: rest) = consumer.after (consumer a state).1 rest :=
  rfl

end Consumer

namespace Emitter

/-! ### Parts of a list -/

/-- The step of `ofList` at an element that is accepted. -/
theorem ofList_cons_of_true {consumer : Consumer α σ} {a : α} {state next : σ}
    (h : consumer a state = (next, true)) (rest : List α) :
    ofList (a :: rest) consumer state = ofList rest consumer next := by
  rw [ofList, h]

/-- The step of `ofList` at an element that is declined: it ends there. -/
theorem ofList_cons_of_false {consumer : Consumer α σ} {a : α} {state next : σ}
    (h : consumer a state = (next, false)) (rest : List α) :
    ofList (a :: rest) consumer state = (next, false) := by
  rw [ofList, h]

/-- The run of `ofList` on `first ++ second`: the second part is offered only if the first was
accepted to its end. -/
theorem ofList_append (first second : List α) (consumer : Consumer α σ) (state : σ) :
    ofList (first ++ second) consumer state =
      match ofList first consumer state with
      | (state, true) => ofList second consumer state
      | (state, false) => (state, false) := by
  induction first generalizing state with
  | nil => rfl
  | cons a rest ih =>
      rw [List.cons_append, ofList, ofList]
      split
      · exact ih _
      · rfl

/-- Lists in a `concat` are offered like one list. -/
theorem concat_map_ofList (lists : List (List α)) (consumer : Consumer α σ) (state : σ) :
    concat (lists.map ofList) consumer state = ofList lists.flatten consumer state := by
  induction lists generalizing state with
  | nil => rfl
  | cons first rest ih =>
      rw [List.map_cons, concat, List.flatten_cons, ofList_append]
      rcases ofList first consumer state with ⟨state, _ | _⟩
      · rfl
      · exact ih state

/-! ### What is offered -/

/-- What was asked of a consumer that was offered `elements`, given its record, its last state, and
whether it was asked to the end: it was asked about the elements from the first on, its state is
what it made of these, it has declined none of them but the last, and that exactly if it was not
asked to the end. -/
structure Offered (consumer : Consumer α σ) (state : σ) (elements : List α)
    (result : (List α × σ) × Bool) : Prop where
  asked : result.1.1 <+: elements
  state_eq : result.1.2 = consumer.after state result.1.1
  declined_iff : ∀ earlier a, earlier ++ [a] <+: result.1.1 →
    ((consumer a (consumer.after state earlier)).2 = false ↔
      earlier ++ [a] = result.1.1 ∧ result.2 = false)
  all_of_true : result.2 = true → result.1.1 = elements
  ne_nil_of_false : result.2 = false → result.1.1 ≠ []

section

variable {consumer : Consumer α σ} {state last : σ} {a : α} {rest asked : List α} {complete : Bool}

/-- The case of no elements: none is asked about. -/
theorem offered_nil : Offered consumer state [] (([], state), true) where
  asked := List.prefix_rfl
  state_eq := rfl
  declined_iff earlier b h := by simp at h
  all_of_true _ := rfl
  ne_nil_of_false h := by cases h

/-- The case of a declined element: it is the only one asked about. -/
theorem offered_of_declined (h : (consumer a state).2 = false) :
    Offered consumer state (a :: rest) (([a], (consumer a state).1), false) where
  asked := ⟨rest, rfl⟩
  state_eq := rfl
  declined_iff earlier b hasked := by
    cases earlier with
    | nil =>
        obtain rfl : b = a := by simpa using hasked
        simp [h]
    | cons c earlier => simp at hasked
  all_of_true := by simp
  ne_nil_of_false _ := List.cons_ne_nil _ _

/-- The case of an accepted element: the others are offered after it. -/
theorem Offered.cons (h : (consumer a state).2 = true)
    (hrest : Offered consumer (consumer a state).1 rest ((asked, last), complete)) :
    Offered consumer state (a :: rest) ((a :: asked, last), complete) where
  asked := List.cons_prefix_cons.mpr ⟨rfl, hrest.asked⟩
  state_eq := hrest.state_eq
  declined_iff earlier b hasked := by
    cases earlier with
    | nil =>
        obtain rfl : b = a := by simpa using hasked
        -- It is not declined; so if nothing follows, the consumer was asked to the end.
        have hfollows : complete = false → asked ≠ [] := hrest.ne_nil_of_false
        simpa [h, eq_comm] using fun hnil hfalse => hfollows hfalse hnil
    | cons c earlier =>
        rw [List.cons_append, List.cons_prefix_cons] at hasked
        obtain ⟨rfl, hasked⟩ := hasked
        rw [Consumer.after_cons, hrest.declined_iff earlier b hasked]
        simp
  all_of_true htrue := congrArg (a :: ·) (hrest.all_of_true htrue)
  ne_nil_of_false _ := List.cons_ne_nil _ _

end

/-- The run of `ofList` is `Offered`, and a `recording` consumer answers and ends like the consumer
itself. Induction on the list. -/
theorem offered_ofList (elements : List α) (consumer : Consumer α σ) (record : List α) (state : σ) :
    ∃ asked last complete, ofList elements consumer state = (last, complete) ∧
      ofList elements consumer.recording (record, state) = ((record ++ asked, last), complete) ∧
      Offered consumer state elements ((asked, last), complete) := by
  induction elements generalizing record state with
  | nil => exact ⟨[], state, true, rfl, by simp [ofList], offered_nil⟩
  | cons a rest ih =>
      rcases hanswer : consumer a state with ⟨next, _ | _⟩
      · have hrecording :
            consumer.recording a (record, state) = ((record ++ [a], next), false) := by
          rw [Consumer.recording, hanswer]
        have hoffered := @offered_of_declined _ _ consumer state a rest (by rw [hanswer])
        rw [hanswer] at hoffered
        exact ⟨[a], next, false, ofList_cons_of_false hanswer rest,
          ofList_cons_of_false hrecording rest, hoffered⟩
      · have hrecording : consumer.recording a (record, state) = ((record ++ [a], next), true) := by
          rw [Consumer.recording, hanswer]
        obtain ⟨asked, last, complete, hplain, hrecorded, hoffered⟩ := ih (record ++ [a]) next
        refine ⟨a :: asked, last, complete, ?_, ?_, ?_⟩
        · rw [ofList_cons_of_true hanswer, hplain]
        · rw [ofList_cons_of_true hrecording, hrecorded, List.append_assoc, List.singleton_append]
        · exact Offered.cons (by rw [hanswer]) (by rw [hanswer]; exact hoffered)

/-! ### Groups of emitters -/

/-- The run of `concat` on `first ++ second`: the second group is started only if the first was
accepted to its end. -/
theorem concat_append (first second : List (Emitter α σ)) (consumer : Consumer α σ) (state : σ) :
    concat (first ++ second) consumer state =
      match concat first consumer state with
      | (state, true) => concat second consumer state
      | (state, false) => (state, false) := by
  induction first generalizing state with
  | nil => rfl
  | cons emitter rest ih =>
      rw [List.cons_append, concat, concat]
      split
      · exact ih _
      · rfl

/-- A `concat` inside a `concat` can be replaced by its members. -/
theorem concat_splice (front group back : List (Emitter α σ)) :
    concat (front ++ concat group :: back) = concat (front ++ (group ++ back)) := by
  funext consumer state
  rw [concat_append, concat_append front]
  rcases concat front consumer state with ⟨state, _ | _⟩
  · rfl
  · exact (concat_append group back consumer state).symm

/-- The `concat` of a single emitter is that emitter. -/
theorem concat_singleton (emitter : Emitter α σ) : concat [emitter] = emitter := by
  funext consumer state
  rw [concat]
  rcases emitter consumer state with ⟨state, _ | _⟩ <;> rfl

/-- Emitters that are grouped to any depth. -/
inductive Nest (α σ : Type) where
  | single (emitter : Emitter α σ)
  | group (parts : List (Nest α σ))

namespace Nest

/-- Concatenates the emitters of each group. -/
def emitter : Nest α σ → Emitter α σ
  | single emitter => emitter
  | group parts => concat (parts.map emitter)

/-- The emitters in a `Nest`, without their grouping. -/
def leaves : Nest α σ → List (Emitter α σ)
  | single emitter => [emitter]
  | group parts => parts.flatMap leaves

/-- If each of the `parts` is emitted like its `leaves`, so are all of them together. -/
theorem concat_map_emitter {parts : List (Nest α σ)}
    (h : ∀ part ∈ parts, part.emitter = concat part.leaves) :
    concat (parts.map emitter) = concat (parts.flatMap leaves) := by
  induction parts with
  | nil => rfl
  | cons part rest ih =>
      have hrest := ih fun other hmem => h other (List.mem_cons_of_mem _ hmem)
      rw [List.map_cons, List.flatMap_cons, h part List.mem_cons_self]
      calc concat (concat part.leaves :: rest.map emitter)
        _ = concat (part.leaves ++ rest.map emitter) := concat_splice [] _ _
        _ = concat (part.leaves ++ [concat (rest.map emitter)]) := by
            rw [concat_splice, List.append_nil]
        _ = concat (part.leaves ++ rest.flatMap leaves) := by
            rw [hrest, concat_splice, List.append_nil]

/-- A `Nest` is emitted like its `leaves` in a row. Induction on the nest. -/
theorem emitter_eq_concat (nest : Nest α σ) : nest.emitter = concat nest.leaves := by
  match nest with
  | single emitter => rw [Nest.emitter, leaves, concat_singleton]
  | group parts =>
      rw [Nest.emitter, leaves]
      exact concat_map_emitter fun part _ => emitter_eq_concat part

end Nest

/-- **A `concat` respects a consumer that declines.** Lists in a `concat` are offered element by
element, up to and including the first that the consumer declines, in whatever state it then is; and
the state that it is left in is what it made of these. Emitters can be grouped in any way and to any
depth, and empty ones do not matter wherever they stand. -/
theorem concat_until_declined :
    (∀ (lists : List (List α)) (consumer : Consumer α σ) (state : σ),
      let result := concat (lists.map ofList) consumer.recording ([], state)
      concat (lists.map ofList) consumer state = (result.1.2, result.2) ∧
        Offered consumer state lists.flatten result) ∧
    (∀ first second third : Emitter α σ,
      concat [concat [first, second], third] = concat [first, concat [second, third]]) ∧
    (∀ front back : List (Emitter α σ),
      concat (front ++ ofList [] :: back) = concat (front ++ back)) ∧
    ∀ nest : Nest α σ, nest.emitter = concat nest.leaves := by
  refine ⟨?_, ?_, ?_, Nest.emitter_eq_concat⟩
  · intro lists consumer state result
    obtain ⟨asked, last, complete, hplain, hrecorded, hoffered⟩ :=
      offered_ofList lists.flatten consumer [] state
    have hresult : result = ((asked, last), complete) := by
      change concat _ _ _ = _
      rw [concat_map_ofList, hrecorded, List.nil_append]
    rw [hresult, concat_map_ofList, hplain]
    exact ⟨rfl, hoffered⟩
  · intro first second third
    have hleft := concat_splice [] [first, second] [third]
    have hright := concat_splice [first] [second, third] []
    exact hleft.trans hright.symm
  · intro front back
    exact concat_splice front [] back

end Emitter

end MovAsm
