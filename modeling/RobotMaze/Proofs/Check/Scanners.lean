import RobotMaze.Proofs.Check.Calls
import RobotMaze.Proofs.Expansion.Moments
import RobotMaze.Proofs.Expansion.Termination
import RobotMaze.Proofs.Text.Parts
import RobotMaze.Proofs.Text.Places

/-!
# The checks and the expander find the same calls

Two scanners look for calls. The checks read a text once, with an offset that they carry along. The
expander has frames: a frame reads its text character by character, other frames come and go above
it in between, and where it goes on is what it has left to read. This file compares the two on
every text, with the places where calls start and where reading goes on after them.

## The calls of one frame

A frame is known by its height, the number of frames below it, which does not change while it is on
the stack. `scan` follows a run for as long as the frame of that height is there, and notes what the
frame itself attempts: the letter, the arguments, where the frame stands when it reads the letter,
and where the same frame stands after the step. Frames above it make attempts of their own, which
are not noted.

## Past the end

An argument list that nothing closes reaches to the end of the text, and `Call.closingParen?` gives
the length of the text for it. Both scanners go on one after that. `resumeOffset` is this number,
and a place in the text is never beyond its end, so there the two differ by one.

## Main results

* `map_placed_callsFrom` — what the scanner of the checks finds at a call letter
* `exists_of_callsFrom_eq`, `stop_of_calls_eq` — the place of a call, and where reading goes on
* `Scanned.step`, `Scanned.scan` — one step and all steps of a frame that is being read
* `exists_scan_left` — without a failure, a frame is read to its end
* `scanners_agree` — the checks find the calls that a frame attempts
-/

namespace RobotMaze

open Expansion

/-- How many characters of its text a frame has read. -/
def Frame.position (f : Frame) : Nat := f.text.length - f.unread.length

namespace Check

open Text

variable {maxDepth : Int} {c : Char} {t rest : Text} {offset stop : Nat}

/-! ### The scanner of the checks -/

/-- A call with its place: how many characters stand before it, and how many before what is read
next. -/
structure PlacedAttempt extends Attempt where
  start : Nat
  resume : Nat
deriving DecidableEq, Repr

/-- What the checks know of a call, without the places of its arguments. -/
def CallSite.placed (call : CallSite) : PlacedAttempt := ⟨call.attempt, call.start, call.stop⟩

@[simp] theorem callsFrom_nil (offset : Nat) : callsFrom offset [] = [] := by rw [callsFrom]

theorem callsFrom_cons_of_not_isCallLetter (h : ¬IsCallLetter c) :
    callsFrom offset (c :: rest) = callsFrom (offset + 1) rest := by
  have hc : ¬isCallLetter c = true := mt isCallLetter_iff.1 h
  rw [callsFrom.eq_def]
  split
  · rename_i heq
    cases heq
  · rename_i heq
    cases heq
    exact if_neg hc
  · rename_i heq
    cases heq
    exact if_neg hc

/-- At a call letter, the checks find a call with the arguments that a frame would take, and go on
with what a frame would have left. -/
theorem exists_callsFrom_cons_eq (rest : Text) (h : IsCallLetter c)
    (hstop : stop + (Call.takeArguments rest).2.length = offset + (rest.length + 1)) :
    ∃ args, args.map (·.text) = Call.arguments (Call.takeArguments rest).1 ∧
      callsFrom offset (c :: rest) =
        ⟨c, offset, stop, args⟩ :: callsFrom stop (Call.takeArguments rest).2 := by
  have hc : isCallLetter c = true := isCallLetter_iff.2 h
  rw [callsFrom.eq_def]
  split
  · rename_i heq
    cases heq
  · rename_i inside heq
    cases heq
    rw [if_pos hc]
    cases hn : Call.closingDistance 1 inside with
    | some n =>
      have hlt : n < inside.length := (Call.closingDistance_eq_some_iff.1 hn).lt_length
      simp only [Call.takeArguments, hn, List.length_drop, List.length_cons] at hstop ⊢
      obtain rfl : stop = offset + n + 3 := by omega
      exact ⟨_, map_text_argumentsAt _ _, rfl⟩
    | none =>
      simp only [Call.takeArguments, hn, List.length_nil, List.length_cons] at hstop ⊢
      obtain rfl : stop = offset + inside.length + 2 := by omega
      exact ⟨_, map_text_argumentsAt _ _, by rw [callsFrom_nil]⟩
  · rename_i hne heq
    cases heq
    have hrest := Call.takeArguments_of_ne hne
    rw [if_pos hc]
    simp only [hrest] at hstop ⊢
    obtain rfl : stop = offset + 1 := by omega
    exact ⟨[], rfl, rfl⟩

theorem map_placed_callsFrom (rest : Text) (h : IsCallLetter c)
    (hstop : stop + (Call.takeArguments rest).2.length = offset + (rest.length + 1)) :
    (callsFrom offset (c :: rest)).map CallSite.placed =
      ⟨⟨c, Call.arguments (Call.takeArguments rest).1⟩, offset, stop⟩ ::
        (callsFrom stop (Call.takeArguments rest).2).map CallSite.placed := by
  obtain ⟨args, hargs, hcalls⟩ := exists_callsFrom_cons_eq rest h hstop
  rw [hcalls, List.map_cons, CallSite.placed, CallSite.attempt, hargs]

/-- Where reading goes on after the call at `start`: after the parenthesis that closes its argument
list, or after the letter if it has none. -/
def resumeOffset (t : Text) (start : Nat) : Nat :=
  match t.drop (start + 1) with
  | '(' :: _ => ((Call.closingParen? t (start + 1 : Nat)).getD 0).toNat + 1
  | _ => start + 1

/-- What a frame has left after the arguments of a call is what stands from that place on. -/
theorem drop_resumeOffset (before : Text) (c : Char) (rest : Text) :
    (before ++ c :: rest).drop (resumeOffset (before ++ c :: rest) before.length) =
      (Call.takeArguments rest).2 := by
  have hdrop : (before ++ c :: rest).drop (before.length + 1) = rest := by
    rw [List.drop_length_add_append]
    rfl
  by_cases hne : ∀ inside, rest ≠ '(' :: inside
  · rw [Call.takeArguments_of_ne hne, resumeOffset, hdrop]
    split
    · exact absurd rfl (hne _)
    · exact hdrop
  · simp only [Classical.not_forall, Decidable.not_not] at hne
    obtain ⟨inside, rfl⟩ := hne
    obtain ⟨stop, hclosing, htake⟩ :=
      Call.takeArguments_eq_closingParen? (before ++ [c]) inside
    simp only [List.append_assoc, List.cons_append, List.nil_append, List.length_append,
      List.length_cons, List.length_nil, Nat.zero_add] at hclosing htake
    simp only [resumeOffset, hdrop, hclosing, htake, Option.getD_some, Int.toNat_natCast]

/-- **What the checks find at a call**, in the whole text: at its start stands its letter, its
arguments are those that a frame would take there, and it is followed by the calls in what a frame
would have left. -/
theorem exists_of_callsFrom_eq {call : CallSite} {later : List CallSite} (before u : Text)
    (earlier : List CallSite) (ht : t = before ++ u)
    (h : callsFrom before.length u = earlier ++ call :: later) :
    ∃ before' rest, t = before' ++ call.name :: rest ∧ call.start = before'.length ∧
      call.args.map (·.text) = Call.arguments (Call.takeArguments rest).1 ∧
      call.stop = t.length - (Call.takeArguments rest).2.length ∧
      later = callsFrom call.stop (Call.takeArguments rest).2 := by
  induction hlength : u.length using Nat.strongRecOn generalizing before u earlier with
  | ind n ih =>
    subst hlength
    cases u with
    | nil => simp at h
    | cons c rest =>
      by_cases hc : IsCallLetter c
      · have hafter : (Call.takeArguments rest).2 <:+ t :=
          (Call.isSuffix_takeArguments_snd rest).trans (ht ▸ ⟨before ++ [c], by simp⟩)
        have hle := hafter.length_le
        have htotal : t.length = before.length + (rest.length + 1) := by simp [ht]
        obtain ⟨args, hargs, hcalls⟩ := exists_callsFrom_cons_eq rest hc
          (show t.length - (Call.takeArguments rest).2.length + _ = before.length + _ by omega)
        rw [hcalls] at h
        cases earlier with
        | nil =>
          obtain ⟨rfl, rfl⟩ := List.cons.inj h
          exact ⟨before, rest, ht, rfl, hargs, rfl, rfl⟩
        | cons first earlier =>
          -- The call is one of those after the first, which stand in what is left after it.
          have hshort := Call.length_takeArguments_snd_le rest
          have hdrop := List.suffix_iff_eq_drop.1 hafter
          refine ih _ (Nat.lt_succ_of_le hshort) (t.take _) _ earlier
            ((List.take_append_drop _ t).symm.trans (congrArg _ hdrop.symm)) ?_ rfl
          rw [List.length_take, Nat.min_eq_left (Nat.sub_le _ _)]
          exact (List.cons.inj h).2
      · rw [callsFrom_cons_of_not_isCallLetter hc] at h
        refine ih rest.length (by simp) (before ++ [c]) rest earlier ?_ ?_ rfl
        · rw [ht, List.append_assoc]
          rfl
        · rwa [List.length_append]

/-- **The checks go on where a frame does.** The place after a call is the one that
`Call.closingParen?` gives, and the calls after it are those in the text from there on. -/
theorem stop_of_calls_eq {call : CallSite} {earlier later : List CallSite}
    (h : calls t = earlier ++ call :: later) :
    call.stop = min (resumeOffset t call.start) t.length ∧
      later = callsFrom call.stop (t.drop call.stop) := by
  obtain ⟨before, rest, ht, hstart, -, hstop, hlater⟩ :=
    exists_of_callsFrom_eq [] t earlier (List.nil_append t).symm h
  have hresume := drop_resumeOffset before call.name rest
  rw [← ht, ← hstart] at hresume
  have hlength := congrArg List.length hresume
  rw [List.length_drop] at hlength
  have hmin : call.stop = min (resumeOffset t call.start) t.length := by omega
  refine ⟨hmin, ?_⟩
  have hdrop : t.drop call.stop = t.drop (resumeOffset t call.start) := by
    rcases Nat.le_total (resumeOffset t call.start) t.length with hle | hle
    · rw [hmin, Nat.min_eq_left hle]
    · rw [hmin, Nat.min_eq_right hle, List.drop_length, List.drop_eq_nil_of_le hle]
  rw [hdrop, hresume]
  exact hlater

/-! ### The frames of the expander -/

variable {f g : Frame} {above below stack stack' : List Frame} {emitted : Option Instruction}
  {made : List PlacedAttempt} {height : Nat}

/-- What the frame on `height` others attempts in a step from the first stack to the second. Only
the frame on top reads, and it attempts a call if it reads a call letter. -/
def attempt? (height : Nat) : List Frame → List Frame → Option PlacedAttempt
  | [], _ => none
  | f :: below, stack' =>
    if below.length = height then
      match f.unread with
      | [] => none
      | c :: rest =>
        if IsCallLetter c then
          stack'.reverse[height]?.map fun f' =>
            ⟨⟨c, Call.arguments (Call.takeArguments rest).1⟩, f.position, f'.position⟩
        else none
    else none

/-- What the frame on `height` others attempts in the next `n` steps, and the moment at which they
end. They end when the frame is left, or when the run does. -/
def scan (maxDepth : Int) (height : Nat) : Nat → Moment → List PlacedAttempt × Moment
  | 0, m => ([], m)
  | n + 1, m =>
    if height < m.stack.length then
      match m.next? maxDepth with
      | some m' =>
        let (made, last) := scan maxDepth height n m'
        ((attempt? height m.stack m'.stack).toList ++ made, last)
      | none => ([], m)
    else ([], m)

theorem scan_succ_of_next? {m m' : Moment} (n : Nat) (hm : height < m.stack.length)
    (h : m.next? maxDepth = some m') :
    scan maxDepth height (n + 1) m =
      ((attempt? height m.stack m'.stack).toList ++ (scan maxDepth height n m').1,
        (scan maxDepth height n m').2) := by
  rw [scan, if_pos hm, h]

/-- The frame on the frames below is found by their number. -/
theorem getElem?_reverse_append (above : List Frame) (f : Frame) (below : List Frame) :
    (above ++ f :: below).reverse[below.length]? = some f := by
  simp

/-- Above a frame, nothing is its attempt. -/
theorem attempt?_of_above (h : above ≠ []) (f : Frame) (below stack' : List Frame) :
    attempt? below.length (above ++ f :: below) stack' = none := by
  cases above with
  | nil => exact absurd rfl h
  | cons g above =>
    have hne : (above ++ f :: below).length ≠ below.length := by
      rw [List.length_append, List.length_cons]
      omega
    exact if_neg hne

theorem attempt?_of_not_isCallLetter (hu : f.unread = c :: rest) (hc : ¬IsCallLetter c)
    (stack' : List Frame) : attempt? height (f :: below) stack' = none := by
  simp [attempt?, hu, hc]

theorem attempt?_of_isCallLetter (hu : f.unread = c :: rest) (hc : IsCallLetter c) :
    attempt? below.length (f :: below) (above ++ g :: below) =
      some ⟨⟨c, Call.arguments (Call.takeArguments rest).1⟩, f.position, g.position⟩ := by
  rw [attempt?, if_pos rfl, hu]
  simp only [hc, if_true, getElem?_reverse_append, Option.map_some]

/-! ### A frame that is being read -/

/-- How far a frame on the frames `below` has come, when it has attempted the calls `made`. While it
is there, with frames above it or not, the calls that it has made and those in what it has left are
the calls of its text. When it is left, it has made them all. -/
inductive Scanned (f : Frame) (below : List Frame) : List PlacedAttempt → List Frame → Prop
  | reading (above : List Frame) {unread : Text} {made : List PlacedAttempt}
      (hu : unread <:+ f.text)
      (hmade : made ++ (callsFrom (f.text.length - unread.length) unread).map CallSite.placed =
        (calls f.text).map CallSite.placed) :
      Scanned f below made (above ++ { f with unread } :: below)
  | left : Scanned f below ((calls f.text).map CallSite.placed) below

/-- A step changes the frame on top and what is above it. -/
theorem exists_eq_append_of_transition (h : Transition maxDepth (f :: below) emitted stack') :
    ∃ above, stack' = above ++ below := by
  cases h with
  | leave => exact ⟨[], rfl⟩
  | emit | skip | undefined | drop => exact ⟨[_], rfl⟩
  | refer | call => exact ⟨[_, _], rfl⟩

/-- Frames further down are not looked at. -/
theorem transition_append (h : Transition maxDepth stack emitted stack') (below : List Frame) :
    Transition maxDepth (stack ++ below) emitted (stack' ++ below) := by
  cases h with
  | leave hu => exact .leave hu
  | emit hu hi => exact .emit hu hi
  | skip hu hi hc hv => exact .skip hu hi hc hv
  | refer hu hp hv => exact .refer hu hp hv
  | undefined hu hc hd hget => exact .undefined hu hc hd hget
  | drop hu hc hd hget hbind => exact .drop hu hc hd hget hbind
  | call hu hc hd hget hbind => exact .call hu hc hd hget hbind

section

variable {unread : Text} (hcons : unread = c :: rest) (hu : unread <:+ f.text)
  (hmade : made ++ (callsFrom (f.text.length - unread.length) unread).map CallSite.placed =
    (calls f.text).map CallSite.placed)
include hcons hu hmade

/-- The frame reads a character that calls nothing, and makes no attempt. -/
theorem Scanned.readOn (hc : ¬IsCallLetter c) (above : List Frame) :
    Scanned f below
      (made ++ (attempt? below.length ({ f with unread } :: below)
        (above ++ { f with unread := rest } :: below)).toList)
      (above ++ { f with unread := rest } :: below) := by
  subst hcons
  have hle := hu.length_le
  rw [List.length_cons] at hle hmade
  rw [attempt?_of_not_isCallLetter rfl hc, Option.toList_none, List.append_nil]
  refine .reading above ((List.suffix_cons c rest).trans hu) ?_
  rw [← hmade, callsFrom_cons_of_not_isCallLetter hc,
    show f.text.length - (rest.length + 1) + 1 = f.text.length - rest.length by omega]

/-- The frame reads a call letter, and attempts the call that the checks find there. -/
theorem Scanned.attempt (hc : IsCallLetter c) (above : List Frame) :
    Scanned f below
      (made ++ (attempt? below.length ({ f with unread } :: below)
        (above ++ { f with unread := (Call.takeArguments rest).2 } :: below)).toList)
      (above ++ { f with unread := (Call.takeArguments rest).2 } :: below) := by
  subst hcons
  have hle := hu.length_le
  have hafter : (Call.takeArguments rest).2 <:+ f.text :=
    (Call.isSuffix_takeArguments_snd rest).trans ((List.suffix_cons c rest).trans hu)
  have hshort := Call.length_takeArguments_snd_le rest
  rw [List.length_cons] at hle hmade
  rw [attempt?_of_isCallLetter rfl hc, Option.toList_some]
  refine .reading above hafter ?_
  rw [← hmade, map_placed_callsFrom rest hc
    (show f.text.length - (Call.takeArguments rest).2.length + _ = _ by omega),
    List.append_assoc]
  rfl

end

/-- **One step.** Whatever a step does while the frame is on the stack, the calls that the frame has
attempted are still those that the checks find in what it has read. -/
theorem Scanned.step (h : Scanned f below made stack) (hlt : below.length < stack.length)
    (ht : Transition maxDepth stack emitted stack') :
    Scanned f below (made ++ (attempt? below.length stack stack').toList) stack' := by
  cases h with
  | left => exact absurd hlt (Nat.lt_irrefl _)
  | @reading above unread made hu hmade =>
    cases above with
    | cons top above =>
      -- The frame on top is another one.
      rw [attempt?_of_above (List.cons_ne_nil top above), Option.toList_none, List.append_nil]
      rw [List.cons_append] at ht
      obtain ⟨above', rfl⟩ := exists_eq_append_of_transition ht
      rw [← List.append_assoc]
      exact .reading (above' ++ above) hu hmade
    | nil =>
      cases ht with
      | leave hnil =>
        obtain rfl : unread = [] := hnil
        rw [callsFrom_nil, List.map_nil, List.append_nil] at hmade
        rw [List.nil_append, attempt?, if_pos rfl, Option.toList_none, List.append_nil, hmade]
        exact .left
      | emit hcons hi => exact .readOn hcons hu hmade (fun hc => by simp [hc.2] at hi) []
      | skip hcons hi hc hv => exact .readOn hcons hu hmade hc []
      | refer hcons hp hv =>
        exact .readOn hcons hu hmade (fun hc => by simp [hc.not_isParameterLetter] at hp) [_]
      | undefined hcons hc hd hget => exact .attempt hcons hu hmade hc []
      | drop hcons hc hd hget hbind => exact .attempt hcons hu hmade hc []
      | call hcons hc hd hget hbind => exact .attempt hcons hu hmade hc [_]

/-- **All steps.** The same after any number of steps. -/
theorem Scanned.scan {m : Moment} (h : Scanned f below made m.stack) (maxDepth : Int) (n : Nat) :
    Scanned f below (made ++ (scan maxDepth below.length n m).1)
      (scan maxDepth below.length n m).2.stack := by
  induction n generalizing m made with
  | zero => rwa [Check.scan, List.append_nil]
  | succ n ih =>
    by_cases hlt : below.length < m.stack.length
    · cases hnext : m.next? maxDepth with
      | none => simpa [Check.scan, hlt, hnext] using h
      | some m' =>
        obtain ⟨-, emitted, ht, -, -⟩ := Moment.transition_of_next? hnext
        rw [scan_succ_of_next? n hlt hnext, ← List.append_assoc]
        exact ih (h.step hlt ht)
    · simpa [Check.scan, hlt] using h

theorem Scanned.eq_of_left (h : Scanned f below made stack) (hs : stack = below) :
    made = (calls f.text).map CallSite.placed := by
  cases h with
  | left => rfl
  | reading above =>
    have := congrArg List.length hs
    simp only [List.length_append, List.length_cons] at this
    omega

theorem Scanned.exists_unread (h : Scanned f below made stack) (hs : stack ≠ below) :
    ∃ above unread, stack = above ++ { f with unread } :: below ∧ unread <:+ f.text ∧
      made ++ (callsFrom (f.text.length - unread.length) unread).map CallSite.placed =
        (calls f.text).map CallSite.placed := by
  cases h with
  | left => exact absurd rfl hs
  | reading above hu hmade => exact ⟨above, _, rfl, hu, hmade⟩

theorem scanned_start (t : Text) (context : Context) (depth : Int) (origin : Origin)
    (below : List Frame) :
    Scanned (.start t context depth origin) below [] (.start t context depth origin :: below) := by
  refine .reading [] (List.suffix_refl t) ?_
  simp [Frame.start, calls]

/-! ### Frames that are read to their end -/

/-- A step on top of other frames, as the loop makes it when there is no limit. -/
theorem next?_append (h : Expansion.step maxDepth stack = .next emitted stack')
    (below : List Frame) (given : List Instruction) :
    Moment.next? maxDepth ⟨none, stack ++ below, given⟩ =
      some ⟨none, stack' ++ below, emitted.toList ++ given⟩ := by
  have hstep := step_eq_next_iff.2 (transition_append (step_eq_next_iff.1 h) below)
  simp [Moment.next?, hstep]

theorem step_cons_ne_finished : Expansion.step maxDepth (f :: below) ≠ .finished := by
  rw [Expansion.step]
  split
  · simp
  · split <;> simp

/-- Without a limit, frames that owe no failure are all left after some steps. -/
theorem exists_scan_left (above below : List Frame) (given : List Instruction)
    (h : (owed maxDepth above).failure = none) :
    ∃ n, (scan maxDepth below.length n ⟨none, above ++ below, given⟩).2.stack = below := by
  induction above using (wellFounded_successor maxDepth).induction generalizing given with
  | _ above ih =>
    rw [owed_eq_owed_step] at h
    cases above with
    | nil => exact ⟨0, rfl⟩
    | cons top above =>
      cases hstep : Expansion.step maxDepth (top :: above) with
      | finished => exact absurd hstep step_cons_ne_finished
      | failed e => simp [hstep, Step.owed] at h
      | next emitted above' =>
        rw [hstep] at h
        obtain ⟨n, hn⟩ := ih above' ⟨_, hstep⟩ (emitted.toList ++ given) h
        have hlt : below.length < (top :: above ++ below).length := by
          rw [List.length_append, List.length_cons]
          omega
        refine ⟨n + 1, ?_⟩
        rw [scan_succ_of_next? n hlt (next?_append hstep below given)]
        exact hn

/-- In a context with nothing in it, expanding fails at no text, unless it is too deep for calls. -/
theorem failure_meaning_empty {depth : Int} (hd : depth ≤ maxDepth) (t : Text) :
    (meaning maxDepth t ⟨[], .empty⟩ depth).failure = none := by
  induction hlength : t.length using Nat.strongRecOn generalizing t with
  | ind n ih =>
    subst hlength
    cases t with
    | nil => rw [meaning]; rfl
    | cons c rest =>
      have hrest := ih rest.length (Nat.lt_succ_self _) rest rfl
      have hafter := ih (Call.takeArguments rest).2.length
        (Nat.lt_succ_of_le (Call.length_takeArguments_snd_le rest)) _ rfl
      rw [meaning]
      split
      · exact hrest
      · split
        · exact hrest
        · split
          · simp only [Int.not_lt.2 hd, dite_false]
            exact hafter
          · exact hrest

end Check

open Check

/-- **The scanners agree.** Take any text, and a frame for it in any context, at any depth and on
any frames, and any limits.

After any number of steps, if the frame has been left, then the calls that it has attempted itself
are exactly those that the checks find in the text, in the same order: the letters, the arguments,
the offsets where they start and the offsets where reading goes on. If the frame is still there, it
has attempted the calls in what it has read, and the others are those in what it has left.

Without a limit, the frame is left if the expansion of the text from there does not fail, which is
the case in a context with nothing in it, unless the depth is too large.

Reading goes on, in the checks too, after the parenthesis that closes the argument list, or after
the letter if there is no list. -/
theorem scanners_agree (maxDepth : Int) (t : Text) (context : Context) (depth : Int)
    (origin : Origin) (below : List Frame) (given : List Instruction) :
    let f := Frame.start t context depth origin
    (∀ room n made m, scan maxDepth below.length n ⟨room, f :: below, given⟩ = (made, m) →
      (m.stack = below → made = (calls t).map CallSite.placed) ∧
        (m.stack ≠ below → ∃ above unread,
          m.stack = above ++ { f with unread } :: below ∧ unread <:+ t ∧
            made ++ (callsFrom (t.length - unread.length) unread).map CallSite.placed =
              (calls t).map CallSite.placed)) ∧
      ((expand maxDepth none context depth t).failure = none → ∃ n,
        (scan maxDepth below.length n ⟨none, f :: below, given⟩).2.stack = below) ∧
      (depth ≤ maxDepth → (expand maxDepth none ⟨[], .empty⟩ depth t).failure = none) ∧
      ∀ earlier call later, calls t = earlier ++ call :: later →
        call.stop = min (resumeOffset t call.start) t.length ∧
          later = callsFrom call.stop (t.drop call.stop) := by
  intro f
  refine ⟨?_, ?_, ?_, ?_⟩
  · intro room n made m hscan
    have h := (scanned_start t context depth origin below).scan (m := ⟨room, f :: below, given⟩)
      maxDepth n
    rw [List.nil_append, hscan] at h
    exact ⟨h.eq_of_left, h.exists_unread⟩
  · intro h
    rw [expand_none_eq_meaning] at h
    exact exists_scan_left [f] below given (by simpa [owed, f, Frame.start] using h)
  · intro hd
    rw [expand_none_eq_meaning]
    exact failure_meaning_empty hd t
  · intro earlier call later h
    exact stop_of_calls_eq h

/-- Two functions, and a text with a nested call, white space around arguments, a reference, noise
before a parenthesis and a list that nothing closes. The frame stands on another one, frames are
entered above it, and it makes four attempts. -/
theorem scanners_agree_nested :
    let functions := (Program.parse "f(A):sA\ng(B):B".toList).functions
    let t := "f( g(s),l )Ag (r)h,f(g(".toList
    let below := [Frame.start "g(s)".toList ⟨functions, .empty⟩ 0 .entry]
    let made : List PlacedAttempt :=
      [⟨⟨'f', ["g(s)".toList, "l".toList]⟩, 0, 11⟩, ⟨⟨'g', []⟩, 12, 13⟩, ⟨⟨'h', []⟩, 17, 18⟩,
        ⟨⟨'f', ["g(".toList]⟩, 19, 23⟩]
    (expand 9 none ⟨functions, .empty⟩ 1 t).failure = none ∧
      (∃ n, (scan 9 1 n ⟨none, .start t ⟨functions, .empty⟩ 1 .call :: below, []⟩).1 = made) ∧
      (calls t).map CallSite.placed = made := by
  intro functions t below made
  obtain ⟨hcalls, hleft, -, -⟩ :=
    scanners_agree 9 t ⟨functions, .empty⟩ 1 .call below []
  have hexpand : (expand 9 none ⟨functions, .empty⟩ 1 t).failure = none := by
    rw [expand_eq_of_runWithin 60 (e := ⟨[.step, .step, .right, .step], none⟩) (by decide +kernel)]
  have hmade : (calls t).map CallSite.placed = made :=
    ((hcalls none 60 _ _ rfl).1 (by decide +kernel)).symm.trans (by decide +kernel)
  obtain ⟨n, hn⟩ := hleft hexpand
  exact ⟨hexpand, ⟨n, ((hcalls none n _ _ rfl).1 hn).trans hmade⟩, hmade⟩

end RobotMaze
