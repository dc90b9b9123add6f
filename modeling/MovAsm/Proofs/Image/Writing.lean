import MovAsm.Proofs.Image.Size

/-!
# Writing a Dump to a Sink With Limited Room

A dump is written line by line, and the room of a sink may end anywhere: within a line, between two
lines, or just at the end of the dump. Wherever it ends, the sink holds as much of the dump as it
has room for, as many bytes were counted, and the writing has failed exactly if some are missing.

Room is counted in characters, which are bytes since all of a dump is in ASCII.

## Main results

* `Emitter.take_ofList`: a list that is not offered to its end.
* `Writing.ofList_line_of_limit`: what a sink with limited room takes of some lines.
* `writeTo_limited`: what a sink with limited room takes of a dump.
-/

namespace MovAsm

/-! ### Collecting elements -/

namespace Emitter

variable {α : Type}

/-- To collect all that `ofList` offers gives what there was and all elements. -/
theorem ofList_collect (elements taken : List α) :
    ofList elements (fun a taken => (taken ++ [a], true)) taken = (taken ++ elements, true) := by
  induction elements generalizing taken with
  | nil => rw [ofList, List.append_nil]
  | cons a rest ih =>
      rw [ofList]
      exact (ih (taken ++ [a])).trans (by rw [List.append_assoc, List.singleton_append])

/-- The `toList` of `ofList` is the list. -/
theorem toList_ofList (elements : List α) : toList (ofList elements) = elements := by
  rw [toList, ofList_collect, List.nil_append]

/-- To collect from `ofList` until there are `n` gives what there was and as many as are still
wanted, but at least one. -/
theorem ofList_collect_until (n : Nat) (elements taken : List α) :
    (ofList elements (fun a taken => (taken ++ [a], decide (taken.length + 1 < n))) taken).1 =
      taken ++ elements.take (max (n - taken.length) 1) := by
  induction elements generalizing taken with
  | nil => rw [ofList, List.take_nil, List.append_nil]
  | cons a rest ih =>
      by_cases hmore : taken.length + 1 < n
      · have hwanted : max (n - taken.length) 1 = max (n - (taken ++ [a]).length) 1 + 1 := by
          rw [List.length_append, List.length_singleton]
          omega
        simp only [ofList, decide_eq_true hmore]
        rw [ih, hwanted, List.take_succ_cons, List.append_assoc, List.singleton_append]
      · have hlast : max (n - taken.length) 1 = 1 := by omega
        simp only [ofList, decide_eq_false hmore, hlast]
        rfl

/-- The answer of `take` on `ofList`: the first `n` elements, but at least one. -/
theorem take_ofList (n : Nat) (elements : List α) :
    take n (ofList elements) = elements.take (max n 1) := by
  rw [take, ofList_collect_until, List.nil_append, List.length_nil, Nat.sub_zero]

end Emitter

/-! ### Writing with limited room -/

namespace Writing

variable {writing : Writing} {room : Nat}

/-- A `line` for which there is room is taken as a whole. -/
theorem line_of_fits {line : String} (hroom : writing.sink.room = some room)
    (hfits : line.length + 1 ≤ room) :
    Writing.line line writing =
      ({ sink :=
          { room := some (room - (line.length + 1))
            stored := writing.sink.stored ++ (line ++ "\n") }
         count := writing.count + (line.length + 1) }, true) := by
  have hsize : (line ++ "\n").length = line.length + 1 := String.length_append ..
  have hwhole : (line ++ "\n").toList.take room = (line ++ "\n").toList :=
    List.take_of_length_le (by rw [String.length_toList, hsize]; exact hfits)
  simp only [Writing.line, Sink.write, hroom, hsize, hwhole, String.ofList_toList,
    Nat.min_eq_right hfits, decide_eq_true hfits]

/-- Of any other `line`, as much is taken as there is room for. -/
theorem line_of_not_fits {line : String} (hroom : writing.sink.room = some room)
    (hfits : room < line.length + 1) :
    Writing.line line writing =
      ({ sink :=
          { room := some 0
            stored := writing.sink.stored ++ String.ofList ((line ++ "\n").toList.take room) }
         count := writing.count + room, complete := false }, false) := by
  have hsize : (line ++ "\n").length = line.length + 1 := String.length_append ..
  simp only [Writing.line, Sink.write, hroom, hsize, Nat.min_eq_left (Nat.le_of_lt hfits),
    Nat.sub_self, decide_eq_false (Nat.not_le_of_lt hfits)]

/-- Of some lines and their ends, a sink takes as much as it has room for, and that is counted. The
writing is `complete` if there is room for all. Induction on the lines. -/
theorem ofList_line_of_limit (lines : List String) (hroom : writing.sink.room = some room)
    (hcomplete : writing.complete = true) :
    let text := lines.flatMap fun line => line.toList ++ ['\n']
    let last := (Emitter.ofList lines Writing.line writing).1
    last.sink.stored.toList = writing.sink.stored.toList ++ text.take room ∧
      last.count = writing.count + min room text.length ∧
      (last.complete = true ↔ text.length ≤ room) := by
  induction lines generalizing writing room with
  | nil => simp [Emitter.ofList, hcomplete]
  | cons line rest ih =>
      have hend : (line ++ "\n").toList = line.toList ++ ['\n'] := String.toList_append
      have hline : (line.toList ++ ['\n']).length = line.length + 1 := by
        rw [List.length_append, String.length_toList, List.length_singleton]
      intro text last
      have htext :
          text = (line.toList ++ ['\n']) ++ rest.flatMap fun line => line.toList ++ ['\n'] :=
        List.flatMap_cons
      have hlength : text.length = line.length + 1 +
          (rest.flatMap fun line => line.toList ++ ['\n']).length := by
        rw [htext, List.length_append, hline]
      by_cases hfits : line.length + 1 ≤ room
      · -- The line is taken as a whole, and the others find that much less room.
        have hstep := line_of_fits hroom hfits
        have hlast : last = (Emitter.ofList rest Writing.line (Writing.line line writing).1).1 := by
          change (Emitter.ofList (line :: rest) Writing.line writing).1 = _
          rw [Emitter.ofList_cons_of_true hstep, hstep]
        obtain ⟨hstored, hcount, hdone⟩ := @ih (Writing.line line writing).1
          (room - (line.length + 1)) (by rw [hstep]) (by rw [hstep])
        rw [hstep] at hstored hcount
        have hwhole : (line.toList ++ ['\n']).take room = line.toList ++ ['\n'] :=
          List.take_of_length_le (by rw [hline]; exact hfits)
        refine ⟨?_, ?_, ?_⟩
        · rw [hlast, hstep, hstored, htext, String.toList_append, hend, List.take_append, hwhole,
            hline, List.append_assoc]
        · rw [hlast, hstep, hcount, hlength]
          dsimp only
          omega
        · rw [hlast, hdone, hlength]
          omega
      · -- Nothing more is taken.
        rw [Nat.not_le] at hfits
        have hstep := line_of_not_fits hroom hfits
        have hlast : last = (Writing.line line writing).1 := by
          change (Emitter.ofList (line :: rest) Writing.line writing).1 = _
          rw [Emitter.ofList_cons_of_false hstep, hstep]
        have hcut : text.take room = (line.toList ++ ['\n']).take room := by
          rw [htext, List.take_append_of_le_length (by rw [hline]; exact Nat.le_of_lt hfits)]
        rw [hlast, hstep, hcut, hlength]
        refine ⟨?_, ?_, ?_⟩
        · rw [String.toList_append, String.toList_ofList, hend]
        · dsimp only
          omega
        · simp only [Bool.false_eq_true, false_iff]
          omega

end Writing

/-! ### Whole dumps -/

namespace Image

/-- A `dump` is made of its lines, each with its end. -/
theorem dump_eq_join (image : Image) :
    image.dump = String.join ((header :: image.rows).map (· ++ "\n")) := by
  rw [← String.toList_inj, image.toList_dump, String.toList_join, List.flatMap_map]
  refine List.flatMap_congr fun line _ => ?_
  rw [String.toList_append]
  rfl

/-- A sink with limited room takes of a `dump` as many characters as it has room for. -/
theorem writeTo_of_limit (image : Image) (room : Nat) :
    let writing := image.writeTo { room := some room }
    writing.sink.stored.toList = image.dump.toList.take room ∧
      writing.count = min room image.dump.toList.length ∧
      (writing.complete = true ↔ image.dump.toList.length ≤ room) := by
  obtain ⟨hstored, hcount, hcomplete⟩ :=
    @Writing.ofList_line_of_limit { sink := { room := some room } } room (header :: image.rows)
      rfl rfl
  rw [image.writeTo_eq, image.toList_dump]
  exact ⟨hstored, hcount.trans (Nat.zero_add _), hcomplete⟩

end Image

/-- **What a sink with limited room takes of a dump.** A `dump` consists of its lines, each with its
end. Of these bytes, a sink with limited room takes exactly as many as it has room for, and as many
are counted. The writing fails if and only if there is not room for all. Whoever stops `emitLines`
or `emitRows` after some elements has got exactly the first of them. -/
theorem writeTo_limited (image : Image) (room : Nat) :
    let writing := image.writeTo { room := some room }
    let bytes := image.dump.toUTF8.data.toList
    let stored := writing.sink.stored.toUTF8.data.toList
    stored = bytes.take (min room bytes.length) ∧ writing.count = stored.length ∧
    (writing.complete = false ↔ room < bytes.length) ∧
    image.dump = String.join (image.emitLines.toList.map (· ++ "\n")) ∧
    image.emitLines.toList = Image.header :: image.emitRows.toList ∧
    ∀ n, Emitter.take n image.emitLines = image.emitLines.toList.take (max n 1) ∧
      Emitter.take n image.emitRows = image.emitRows.toList.take (max n 1) := by
  intro writing bytes stored
  obtain ⟨htaken, hcount, hcomplete⟩ := image.writeTo_of_limit room
  have hascii : ∀ c ∈ writing.sink.stored.toList, c.val ≤ 127 := by
    rw [htaken]
    exact fun c hc => image.ascii_dump c (List.mem_of_mem_take hc)
  have hsize : bytes.length = image.dump.toList.length := by
    change image.dump.toUTF8.data.toList.length = _
    rw [Text.toUTF8_of_ascii image.ascii_dump, List.length_map]
  have hbytes : stored = bytes.take room := by
    change writing.sink.stored.toUTF8.data.toList = image.dump.toUTF8.data.toList.take room
    rw [Text.toUTF8_of_ascii hascii, htaken, Text.toUTF8_of_ascii image.ascii_dump, List.map_take]
  have hlines : image.emitLines.toList = Image.header :: image.rows := by
    rw [image.emitLines_eq, Emitter.toList_ofList]
  have hrows : image.emitRows.toList = image.rows := Emitter.toList_ofList image.rows
  refine ⟨hbytes.trans List.take_eq_take_min, ?_, ?_, ?_, ?_, fun n => ⟨?_, ?_⟩⟩
  · rw [hcount, hbytes, List.length_take, hsize]
  · rw [hsize, ← Nat.not_le, ← hcomplete, Bool.not_eq_true]
  · rw [hlines, image.dump_eq_join]
  · rw [hlines, hrows]
  · rw [hlines, image.emitLines_eq, Emitter.take_ofList]
  · rw [hrows]
    exact Emitter.take_ofList n image.rows

end MovAsm
