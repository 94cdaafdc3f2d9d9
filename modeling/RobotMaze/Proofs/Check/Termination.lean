import RobotMaze.Proofs.Check.Soundness
import RobotMaze.Proofs.Text.Newlines

/-!
# The checks come to an end

The search walks along a list of pieces while it adds pieces at the end of that list, and the
scanner of a piece jumps ahead by indices that it works out on the way. `searched` and `callsFrom`
have a measure in their definitions. This file has the two loops as they are written down without
one: they hold an index, they can read beyond the end of a list, and they are given a number of
iterations that they may use up. Neither of the two things happens.

## Why the list stops growing

An argument of a call stands within the call, behind its letter, so it is shorter than the piece
(`length_lt_of_mem_passed`). That alone bounds how deep arguments nest, but not how many there are.
The arguments of all calls of a piece stand apart, with a letter and a parenthesis before the first
of each call and a comma or a parenthesis after each. So they are no longer than the piece, even
when one is added to the length of each. The `weight` of the pieces that wait falls by one at least
with every piece that is scanned, and no more pieces are scanned than the lines weigh
(`length_searched_le`).

## Main results

* `scanWithin_eq` — the scanner reads no text beyond its end, and needs no more iterations than the
  text has characters
* `Search.next_eq` — one iteration of the search
* `Search.runWithin_eq` — all iterations
* `search_ends` — the checks give their diagnostics after a bounded number of iterations
-/

namespace RobotMaze

namespace Check

open Text

/-- Why following a loop for a number of iterations gives no result. -/
inductive Fault where
  /-- The loop reads at an index where there is nothing. -/
  | outOfRange
  /-- The loop has not come to its end. -/
  | unfinished
deriving DecidableEq, Repr

/-- The element at an index. -/
def elementAt {α : Type} (l : List α) (i : Nat) : Except Fault α :=
  match l[i]? with
  | some a => .ok a
  | none => .error .outOfRange

theorem elementAt_of_getElem? {α : Type} {l : List α} {i : Nat} {a : α} (h : l[i]? = some a) :
    elementAt l i = .ok a := by
  rw [elementAt, h]

/-! ### Scanning by index -/

/-- The index of the parenthesis that closes the one at `start`, or the length of the text. -/
def closingIndex (t : Text) (start : Nat) : Except Fault Nat :=
  match Call.closingParen? t start with
  | some stop => .ok stop.toNat
  | none => .error .outOfRange

/-- What stands at an index that scanning has come to: a call, if there is one, and the index where
scanning goes on. -/
def siteAt (t : Text) (i : Nat) : Except Fault (Option CallSite × Nat) := do
  let c ← elementAt t i
  if isCallLetter c then
    if t[i + 1]? = some '(' then
      let stop ← closingIndex t (i + 1)
      return (some ⟨c, i, min (stop + 1) t.length,
        argumentsAt (i + 2) ((t.take stop).drop (i + 2))⟩, stop + 1)
    else return (some ⟨c, i, i + 1, []⟩, i + 1)
  else return (none, i + 1)

/-- The calls in a text from index `i` on, found in at most `budget` iterations. -/
def scanWithin (t : Text) : Nat → Nat → Except Fault (List CallSite)
  | 0, i => if t.length ≤ i then .ok [] else .error .unfinished
  | budget + 1, i =>
    if t.length ≤ i then .ok []
    else do
      let (found, next) ← siteAt t i
      let later ← scanWithin t budget next
      return found.toList ++ later

/-- The parenthesis at `start` is closed where the text after it says, or at its end. -/
theorem closingIndex_eq {t inside : Text} {start : Nat} (h : t.drop start = '(' :: inside) :
    closingIndex t start =
      .ok ((Call.closingDistance 1 inside).elim t.length fun n => start + n + 1) := by
  rw [closingIndex, Call.closingParen?_eq h]
  rfl

theorem callsFrom_bare {c : Char} {rest : Text} {offset : Nat} (hc : isCallLetter c = true)
    (h : rest.head? ≠ some '(') :
    callsFrom offset (c :: rest) = ⟨c, offset, offset + 1, []⟩ :: callsFrom (offset + 1) rest := by
  rw [callsFrom]
  · exact if_pos hc
  · rintro inside rfl
    exact h rfl

/-- Where an argument list is closed, as an index into the whole text, `callsFrom` takes the
arguments from before and goes on behind. -/
theorem callsFrom_list {t inside : Text} {c : Char} {i : Nat} (hc : isCallLetter c = true)
    (h : t.drop (i + 1) = '(' :: inside) :
    ∃ stop, closingIndex t (i + 1) = .ok stop ∧ i < stop ∧
      callsFrom i (c :: '(' :: inside) =
        ⟨c, i, min (stop + 1) t.length, argumentsAt (i + 2) ((t.take stop).drop (i + 2))⟩ ::
          callsFrom (stop + 1) (t.drop (stop + 1)) := by
  have hlength : t.length = i + 2 + inside.length := by
    have := congrArg List.length h
    rw [List.length_drop, List.length_cons] at this
    omega
  have hafter : ∀ n, t.drop (i + 2 + n) = inside.drop n := by
    intro n
    rw [show i + 2 + n = (i + 1) + (n + 1) by omega, ← List.drop_drop, h, List.drop_succ_cons]
  have hargs : ∀ n, (t.take (i + 2 + n)).drop (i + 2) = inside.take n := by
    intro n
    rw [List.drop_take, hafter 0, Nat.add_sub_cancel_left]
    rfl
  refine ⟨_, closingIndex_eq h, ?_⟩
  rw [callsFrom, if_pos hc]
  cases hn : Call.closingDistance 1 inside with
  | some n =>
    have hlt : n < inside.length := (Call.closingDistance_eq_some_iff.1 hn).lt_length
    have hclosing : i + 1 + n + 1 = i + 2 + n := by omega
    have hnext : i + n + 3 = i + 2 + (n + 1) := by omega
    have hmin : min (i + 2 + (n + 1)) t.length = i + 2 + (n + 1) := by omega
    simp only [Option.elim, hclosing, hargs, hafter, hnext, hmin, Nat.add_assoc (i + 2), and_true]
    omega
  | none =>
    have hmin : min (t.length + 1) t.length = i + inside.length + 2 := by omega
    have hend : t.drop (t.length + 1) = [] := List.drop_eq_nil_of_le (Nat.le_succ _)
    have hall : (t.take t.length).drop (i + 2) = inside := by
      rw [hlength, hargs, List.take_length]
    simp only [Option.elim, hmin, hall, hend, callsFrom_nil, and_true]
    omega

/-- **One iteration of the scanner.** It finds the first call that `callsFrom` finds, if that stands
at this index, and moves on. -/
theorem exists_siteAt_eq {t : Text} {i : Nat} (h : i < t.length) :
    ∃ found next, siteAt t i = .ok (found, next) ∧ i < next ∧
      callsFrom i (t.drop i) = found.toList ++ callsFrom next (t.drop next) := by
  have hdrop : t.drop i = t[i] :: t.drop (i + 1) := List.drop_eq_getElem_cons h
  have hnext : t[i + 1]? = (t.drop (i + 1)).head? := by rw [List.head?_drop]
  rw [siteAt, elementAt_of_getElem? (List.getElem?_eq_getElem h), hdrop, hnext]
  show ∃ found next, (if isCallLetter t[i] = true then _ else _) = _ ∧ _
  generalize t[i] = c
  by_cases hc : isCallLetter c = true
  · rw [if_pos hc]
    by_cases hopen : (t.drop (i + 1)).head? = some '('
    · obtain ⟨inside, hinside⟩ : ∃ inside, t.drop (i + 1) = '(' :: inside :=
        List.head?_eq_some_iff.1 hopen
      obtain ⟨stop, hstop, hlt, hcalls⟩ := callsFrom_list hc hinside
      rw [if_pos hopen, hstop, hinside, hcalls]
      exact ⟨_, _, rfl, Nat.lt_succ_of_lt hlt, rfl⟩
    · rw [if_neg hopen, callsFrom_bare hc hopen]
      exact ⟨_, _, rfl, Nat.lt_succ_self i, rfl⟩
  · rw [if_neg hc, callsFrom_cons_of_not_isCallLetter (mt isCallLetter_iff.2 hc)]
    exact ⟨none, i + 1, rfl, Nat.lt_succ_self i, rfl⟩

/-- **Scanning by index.** No index is beyond the end of the text, and there are no more iterations
than there are characters. What is found is what `callsFrom` finds. -/
theorem scanWithin_eq (t : Text) {budget i : Nat} (h : t.length ≤ i + budget) :
    scanWithin t budget i = .ok (callsFrom i (t.drop i)) := by
  induction budget generalizing i with
  | zero =>
    have hi : t.length ≤ i := h
    rw [scanWithin, if_pos hi, List.drop_eq_nil_of_le hi, callsFrom_nil]
  | succ budget ih =>
    by_cases hi : t.length ≤ i
    · rw [scanWithin, if_pos hi, List.drop_eq_nil_of_le hi, callsFrom_nil]
    obtain ⟨found, next, hsite, hlt, hcalls⟩ := exists_siteAt_eq (Nat.lt_of_not_le hi)
    rw [scanWithin, if_neg hi, hsite, hcalls]
    show (do let later ← scanWithin t budget next; return found.toList ++ later) = _
    rw [ih (by omega)]
    rfl

/-! ### Walking along a list that grows -/

/-- The search on its way: how many pieces have been scanned, all pieces that are known by now, and
what has been found. -/
structure Search where
  scanned : Nat
  segments : List Segment
  found : List Diagnostic
deriving DecidableEq, Repr

namespace Search

variable {table : FunctionTable}

/-- Looks at a call in the piece that is being scanned: what it passes on joins the pieces. -/
def look (table : FunctionTable) (s : Segment) (search : Search) (call : CallSite) : Search :=
  { search with
    segments := search.segments ++ passedBy table s call
    found := search.found ++ (callDiagnostic table s call).toList }

/-- One iteration: the next piece is scanned. -/
def next (table : FunctionTable) (search : Search) : Except Fault Search := do
  let s ← elementAt search.segments search.scanned
  let calls ← scanWithin s.text s.text.length 0
  return calls.foldl (look table s) { search with scanned := search.scanned + 1 }

/-- Scans pieces as long as there are any, in at most `budget` iterations. -/
def runWithin (table : FunctionTable) : Nat → Search → Except Fault Search
  | 0, search =>
    if search.segments.length ≤ search.scanned then .ok search else .error .unfinished
  | budget + 1, search =>
    if search.segments.length ≤ search.scanned then .ok search
    else search.next table >>= runWithin table budget

theorem foldl_look (s : Segment) (calls : List CallSite) (search : Search) :
    calls.foldl (look table s) search =
      { search with
        segments := search.segments ++ calls.flatMap (passedBy table s)
        found := search.found ++ calls.filterMap (callDiagnostic table s) } := by
  induction calls generalizing search with
  | nil => simp
  | cons call calls ih =>
    rw [List.foldl_cons, ih, look]
    cases h : callDiagnostic table s call <;> simp [h]

/-- **One iteration** scans the next piece, whatever it holds. What the piece passes on joins the
others at the end. -/
theorem next_eq {search : Search} {s : Segment} (h : search.segments[search.scanned]? = some s) :
    search.next table =
      .ok ⟨search.scanned + 1, search.segments ++ passed table s,
        search.found ++ (calls s.text).filterMap (callDiagnostic table s)⟩ := by
  have hscan : scanWithin s.text s.text.length 0 = .ok (calls s.text) :=
    scanWithin_eq s.text (Nat.le_add_left _ _)
  rw [next, elementAt_of_getElem? h]
  show (do let calls ← scanWithin s.text s.text.length 0; return _) = _
  rw [hscan, passed_eq_flatMap]
  exact congrArg Except.ok (foldl_look s (calls s.text) _)

/-- The search after all pieces have been scanned: those that are left, those that these pass on,
and so forth. -/
def final (table : FunctionTable) (search : Search) : Search :=
  let waiting := searched table (search.segments.drop search.scanned)
  ⟨search.scanned + waiting.length, search.segments.take search.scanned ++ waiting,
    search.found ++ waiting.flatMap fun s => (calls s.text).filterMap (callDiagnostic table s)⟩

/-- How many iterations are still to be made. -/
def remaining (table : FunctionTable) (search : Search) : Nat :=
  (searched table (search.segments.drop search.scanned)).length

/-- With no piece left, the search is over. -/
theorem runWithin_of_end (table : FunctionTable) {search : Search}
    (h : search.scanned = search.segments.length) (budget : Nat) :
    search.runWithin table budget = .ok (search.final table) ∧ search.remaining table = 0 := by
  have hle : search.segments.length ≤ search.scanned := Nat.le_of_eq h.symm
  have hwaiting : searched table (search.segments.drop search.scanned) = [] := by
    rw [List.drop_eq_nil_of_le hle, searched]
  have hrun : search.runWithin table budget = .ok search := by
    cases budget <;> exact if_pos hle
  rw [hrun, final, remaining, hwaiting, List.take_of_length_le hle]
  simp

/-- An iteration leaves one iteration less, and does not change where the search leads. -/
theorem final_of_next (table : FunctionTable) {search search' : Search} {s : Segment}
    (hs : search.segments[search.scanned]? = some s) (h : search.next table = .ok search') :
    search'.final table = search.final table ∧
      search.remaining table = search'.remaining table + 1 ∧
      search'.scanned ≤ search'.segments.length := by
  have hlt : search.scanned < search.segments.length := (List.getElem?_eq_some_iff.1 hs).1
  have hwaiting : searched table (search.segments.drop search.scanned) =
      s :: searched table (search.segments.drop (search.scanned + 1) ++ passed table s) := by
    rw [List.drop_eq_getElem?_toList_append, hs, Option.toList, List.singleton_append, searched]
  have htake : search.segments.take (search.scanned + 1) =
      search.segments.take search.scanned ++ [s] := by
    rw [List.take_add_one, hs, Option.toList]
  obtain rfl := Except.ok.inj ((next_eq hs).symm.trans h)
  simp only [final, remaining, hwaiting, List.drop_append_of_le_length hlt,
    List.take_append_of_le_length hlt, htake, List.length_cons, List.length_append,
    List.flatMap_cons, List.append_assoc, List.singleton_append, true_and]
  exact ⟨by rw [Nat.add_assoc, Nat.add_comm 1], by omega⟩

/-- **All iterations.** As many are needed as there are pieces to be scanned, neither more nor
less. -/
theorem runWithin_eq (search : Search) (h : search.scanned ≤ search.segments.length)
    (budget : Nat) :
    search.runWithin table budget =
      if search.remaining table ≤ budget then .ok (search.final table)
      else .error .unfinished := by
  induction budget generalizing search with
  | zero =>
    rcases Nat.eq_or_lt_of_le h with hend | hlt
    · obtain ⟨hrun, hremaining⟩ := runWithin_of_end table hend 0
      rw [hrun, hremaining, if_pos (Nat.le_refl 0)]
    · have hs := List.getElem?_eq_getElem hlt
      obtain ⟨-, hremaining, -⟩ := final_of_next table hs (next_eq hs)
      rw [runWithin, if_neg (Nat.not_le.2 hlt), hremaining, if_neg (Nat.not_succ_le_zero _)]
  | succ budget ih =>
    rcases Nat.eq_or_lt_of_le h with hend | hlt
    · obtain ⟨hrun, hremaining⟩ := runWithin_of_end table hend (budget + 1)
      rw [hrun, hremaining, if_pos (Nat.zero_le _)]
    · have hs := List.getElem?_eq_getElem hlt
      obtain ⟨hfinal, hremaining, hscanned⟩ := final_of_next table hs (next_eq hs)
      rw [runWithin, if_neg (Nat.not_le.2 hlt), next_eq hs]
      show runWithin table budget _ = _
      rw [ih _ hscanned, hfinal, hremaining]
      simp only [Nat.add_le_add_iff_right]

end Search

/-! ### How many pieces there are -/

variable {table : FunctionTable} {s s' : Segment}

/-- What a piece passes on is shorter than the piece. -/
theorem length_lt_of_mem_passed (h : s' ∈ passed table s) : s'.text.length < s.text.length := by
  obtain ⟨call, hcall, arg, harg, rfl⟩ := exists_of_mem_passed h
  obtain ⟨hstands, hbehind, -⟩ := standsAt_of_mem_args hcall harg
  have hle := hstands.add_length_le
  show arg.text.length < s.text.length
  omega

/-- No more pieces are searched than those weigh that the search starts with. -/
theorem length_searched_le (segments : List Segment) :
    (searched table segments).length ≤ weight (segments.map (·.text)) := by
  fun_induction searched table segments with
  | case1 => exact Nat.le_refl 0
  | case2 s waiting ih =>
    have hpassed := weight_passed_lt table s
    simp only [List.map_append, List.map_cons, weight_append, weight_cons, weight_nil,
      List.length_cons] at ih hpassed ⊢
    omega

/-- The pieces that lines hold weigh no more than the lines. -/
theorem weight_filterMap_lineSegment?_le (lines : List Text) (first : Nat) :
    weight (((lines.zipIdx first).filterMap fun p => lineSegment? p.2 p.1).map (·.text)) ≤
      weight lines := by
  induction lines generalizing first with
  | nil => exact Nat.le_refl 0
  | cons raw lines ih =>
    have hlines := ih (first + 1)
    rw [List.zipIdx_cons, List.filterMap_cons]
    cases hs : lineSegment? first raw with
    | none =>
      show weight _ ≤ raw.length + 1 + weight lines
      exact Nat.le_add_left_of_le hlines
    | some s =>
      obtain ⟨-, i, -, hstands⟩ := place_of_lineSegment? hs
      have hle := hstands.add_length_le
      show s.text.length + 1 + weight _ ≤ raw.length + 1 + weight lines
      omega

theorem weight_eq (texts : List Text) : weight texts = texts.flatten.length + texts.length := by
  induction texts with
  | nil => rfl
  | cons t texts ih =>
    rw [weight_cons, ih, List.flatten_cons, List.length_append, List.length_cons]
    omega

/-- The lines of a text are together no longer than the text. -/
theorem weight_splitLines_le (text : Text) :
    weight (splitLines text) ≤ text.length + (splitLines text).length := by
  rw [weight_eq]
  exact Nat.add_le_add_right (flatten_splitLines_sublist text).length_le _

/-- No more pieces are searched than the text has characters and lines. -/
theorem length_searched_lineSegments_le (text : Text) :
    (searched table (lineSegments text)).length ≤ text.length + (splitLines text).length :=
  calc (searched table (lineSegments text)).length
    _ ≤ weight ((lineSegments text).map (·.text)) := length_searched_le _
    _ ≤ weight (splitLines text) := weight_filterMap_lineSegment?_le _ 1
    _ ≤ text.length + (splitLines text).length := weight_splitLines_le text

/-- The search as it starts when the lines have been read. -/
def Survey.search (s : Survey) : Search := ⟨0, s.segments, s.found⟩

end Check

open Check Text

/-- **The checks come to an end.** When the lines of a text have been read, the search needs a fixed
number of iterations, and nothing is read beyond an end on the way. With fewer iterations the search
is unfinished. With that many or more it ends with the diagnostics of the text, and it has scanned
as many pieces as it has made iterations, which are no more than the characters and the lines of the
text together.

An iteration from any state of the search scans the next piece, and adds only pieces that are
shorter than this one. -/
theorem search_ends (text : Text) :
    (∃ final : Search,
      final.found = diagnostics text ∧ final.scanned = final.segments.length ∧
        final.segments.length ≤ text.length + (splitLines text).length ∧
        ∀ budget, (survey text).search.runWithin (survey text).table budget =
          if final.segments.length ≤ budget then .ok final else .error .unfinished) ∧
      ∀ (table : FunctionTable) (search : Search) (s : Segment),
        search.segments[search.scanned]? = some s → ∃ search' added,
          search.next table = .ok search' ∧ search'.scanned = search.scanned + 1 ∧
            search'.segments = search.segments ++ added ∧
            ∀ s' ∈ added, s'.text.length < s.text.length := by
  refine ⟨?_, fun table search s hs => ?_⟩
  · rw [survey_eq]
    let start : Search := ⟨0, lineSegments text, lineDiagnostics [] (programLines text)⟩
    let functions := (Program.parse text).functions
    have hlength : (start.final functions).segments.length = start.remaining functions := rfl
    refine ⟨start.final functions, rfl, Nat.zero_add _, ?_, fun budget => ?_⟩
    · exact length_searched_lineSegments_le text
    · rw [hlength]
      exact start.runWithin_eq (Nat.zero_le _) budget
  · exact ⟨_, _, Search.next_eq hs, rfl, rfl, fun s' hs' => length_lt_of_mem_passed hs'⟩

/-- An argument with a call that has an argument, an argument list that a comma cuts in two, and one
that nothing closes. Ten pieces are scanned: two bodies, a main line, and seven that join the list
while it is walked along. -/
theorem search_ends_nested :
    let text := "f(A,B):AB\ng(C):C\nf(g(gs),l)f(s,g(f(x,".toList
    let start := (survey text).search
    start.segments.length = 3 ∧
      start.runWithin (survey text).table 9 = .error .unfinished ∧
      ∃ final, start.runWithin (survey text).table 10 = .ok final ∧
        final.found = diagnostics text ∧ final.segments.length = 10 := by
  intro text start
  obtain ⟨⟨final, hfound, -, -, hrun⟩, -⟩ := search_ends text
  have hnine : start.runWithin (survey text).table 9 = .error .unfinished := by decide +kernel
  have hten : start.runWithin (survey text).table 10 ≠ .error .unfinished := by decide +kernel
  have hmore : ¬final.segments.length ≤ 9 := fun hle => by
    rw [hrun, if_pos hle] at hnine
    cases hnine
  have hless : final.segments.length ≤ 10 := by
    by_contra hlt
    exact hten ((hrun 10).trans (if_neg hlt))
  exact ⟨by decide +kernel, hnine, final, (hrun 10).trans (if_pos hless), hfound, by omega⟩

end RobotMaze
