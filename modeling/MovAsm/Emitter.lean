/-!
# Emitters

An emitter offers its elements one by one to a consumer, which may decline further elements at
any time. Dumps are written this way: a consumer that stops early, because it has seen enough or
because its disk is full, is offered nothing more.

A consumer keeps a state of type `σ`. It answers each element with its new state and whether it
wants another. An emitter answers with the last state and whether it ran to its end.

## Main definitions

* `Emitter.ofList` — the elements of a list, in order;
* `Emitter.concat` — emitters one after the other;
* `Emitter.toList`, `Emitter.take` — all elements, and the first few.
-/

namespace MovAsm

/-- What a consumer does with an element: its new state, and whether it wants another. -/
abbrev Consumer (α σ : Type) := α → σ → σ × Bool

/-- A source of elements for consumers with state `σ`: from a consumer and its first state to its
last state, and whether every element was accepted. -/
def Emitter (α σ : Type) := Consumer α σ → σ → σ × Bool

namespace Emitter

variable {α σ : Type}

/-- The emitter that offers the elements of a list in order, up to the first that is declined. -/
def ofList : List α → Emitter α σ
  | [], _, state => (state, true)
  | a :: rest, consumer, state =>
    match consumer a state with
    | (state, true) => ofList rest consumer state
    | (state, false) => (state, false)

/-- Runs emitters one after the other. Once a consumer has declined, no emitter is started. -/
def concat : List (Emitter α σ) → Emitter α σ
  | [], _, state => (state, true)
  | emitter :: rest, consumer, state =>
    match emitter consumer state with
    | (state, true) => concat rest consumer state
    | (state, false) => (state, false)

/-- Collects every element, with a consumer that declines none. -/
def toList (emitter : Emitter α (List α)) : List α :=
  (emitter (fun a taken => (taken ++ [a], true)) []).1

/-- Collects elements until `n` are taken; at least one is, if there is any. -/
def take (n : Nat) (emitter : Emitter α (List α)) : List α :=
  (emitter (fun a taken => (taken ++ [a], taken.length + 1 < n)) []).1

end Emitter

end MovAsm
