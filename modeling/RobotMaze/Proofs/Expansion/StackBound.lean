import RobotMaze.Proofs.Expansion.Moments

/-!
# The depth limit bounds the stack

A call counts towards the depth limit, a reference to a fragment does not: it puts a frame on the
stack and leaves the depth as it is. So nothing looks at how many references are on the stack. They
are paid for by calls all the same.

## Calls pay for references

Fragments nest. A call raises the height of the scope by one at most, because the fragments that it
binds are written in the scope of the caller (`Definition.height_bind_le`). A reference goes back to
the scope where its fragment was written, which is less high (`Scope.height_lt_of_get?`). An
expansion starts without bindings. So, counted from the bottom of the stack up to any frame, the
height of the scope of that frame and the references together come to no more than the calls.

`Balanced` says this of every frame, together with what the depth is: the number of calls. Both are
needed along the whole stack and not only for the frame on top, since any frame can come to the top.

## Main results

* `Balanced.transition` — every step keeps the stack balanced
* `stack_bounded` — the depths on the stack, its references and its size
-/

namespace RobotMaze

namespace Expansion

variable {maxDepth : Int} {emitted : Option Instruction} {f : Frame}
  {below stack stack' : List Frame}

/-- How many frames of a stack are there for the reason given. -/
def pushed (origin : Origin) (stack : List Frame) : Nat := stack.countP (·.origin = origin)

@[simp] theorem pushed_nil (origin : Origin) : pushed origin [] = 0 := rfl

@[simp] theorem pushed_cons (origin : Origin) (f : Frame) (below : List Frame) :
    pushed origin (f :: below) = pushed origin below + if f.origin = origin then 1 else 0 := by
  simp [pushed, List.countP_cons]

/-- Every frame is on the stack for one of the three reasons. -/
theorem length_eq_pushed (stack : List Frame) :
    stack.length = pushed .entry stack + pushed .call stack + pushed .reference stack := by
  induction stack with
  | nil => rfl
  | cons f below ih =>
    rw [List.length_cons, ih]
    cases hf : f.origin <;> simp [hf] <;> omega

/-! ### Balanced stacks -/

/-- The account of a frame with the frames below it: the depth of the frame is the number of calls,
and they cover the references and the height of the scope that is left. -/
structure Accounted (f : Frame) (below : List Frame) : Prop where
  entry : pushed .entry (f :: below) = 1
  depth : f.depth = pushed .call (f :: below)
  height : f.context.scope.height + pushed .reference (f :: below) ≤ pushed .call (f :: below)

/-- The account of every frame is in order. -/
def Balanced : List Frame → Prop
  | [] => True
  | f :: below => Accounted f below ∧ Balanced below

theorem Accounted.readOn (h : Accounted f below) (unread : Text) :
    Accounted { f with unread } below :=
  ⟨by simpa using h.entry, by simpa using h.depth, by simpa using h.height⟩

/-- A fragment is less high than the scope that binds it, which pays for the reference. -/
theorem Accounted.refer (h : Accounted f below) {c : Char} {t : Text} {own : Context}
    (hv : f.context.scope.get? [c] = some (.fragment t own)) (unread : Text) :
    Accounted (.start t own f.depth .reference) ({ f with unread } :: below) := by
  have hheight := Scope.height_lt_of_get? hv
  obtain ⟨he, hd, hh⟩ := h
  refine ⟨?_, ?_, ?_⟩ <;> simp only [Frame.start, pushed_cons] at he hd hh ⊢
  · simpa using he
  · simpa using hd
  · simp only [if_true, reduceCtorEq, if_false]
    omega

/-- A call makes the scope one higher at most, and pays for it. -/
theorem Accounted.call (h : Accounted f below) {d : Definition} {args : List Text}
    {callee : Context} (hbind : d.bind args f.context = .ok (some callee)) (unread : Text) :
    Accounted (.start d.body callee (f.depth + 1) .call) ({ f with unread } :: below) := by
  have hheight := Definition.height_bind_le hbind
  obtain ⟨he, hd, hh⟩ := h
  refine ⟨?_, ?_, ?_⟩ <;> simp only [Frame.start, pushed_cons] at he hd hh ⊢
  · simpa using he
  · simp only [if_true]
    omega
  · simp only [if_true, reduceCtorEq, if_false]
    omega

/-- **One step.** What comes to the top of the stack, or is put there, has its account in order. -/
theorem Balanced.transition (h : Balanced stack) (ht : Transition maxDepth stack emitted stack') :
    Balanced stack' := by
  cases ht with
  | leave => exact h.2
  | emit | skip | undefined | drop => exact ⟨h.1.readOn _, h.2⟩
  | refer _ _ hv => exact ⟨h.1.refer hv _, h.1.readOn _, h.2⟩
  | call _ _ _ _ hbind => exact ⟨h.1.call hbind _, h.1.readOn _, h.2⟩

/-- An expansion without bindings starts from a balanced stack. -/
theorem balanced_entry (functions : FunctionTable) (main : Text) :
    Balanced [.start main ⟨functions, .empty⟩ 0 .entry] :=
  ⟨⟨rfl, rfl, Nat.le_refl 0⟩, trivial⟩

/-! ### What the accounts say -/

theorem Balanced.references_le (h : Balanced stack) :
    pushed .reference stack ≤ pushed .call stack := by
  cases stack with
  | nil => exact Nat.le_refl 0
  | cons f below => exact Nat.le_trans (Nat.le_add_left _ _) h.1.height

theorem Balanced.depth_le (h : Balanced stack) : ∀ f ∈ stack, f.depth ≤ pushed .call stack := by
  induction stack with
  | nil => simp
  | cons f below ih =>
    intro g hg
    rcases List.mem_cons.1 hg with rfl | hg
    · exact Int.le_of_eq h.1.depth
    · have := ih h.2 g hg
      rw [pushed_cons]
      omega

/-- Depths never decrease on the way up. -/
theorem Balanced.pairwise_depth (h : Balanced stack) :
    stack.Pairwise fun upper lower => lower.depth ≤ upper.depth := by
  induction stack with
  | nil => exact .nil
  | cons f below ih =>
    refine .cons (fun g hg => ?_) (ih h.2)
    rw [h.1.depth]
    exact h.depth_le g (List.mem_cons_of_mem f hg)

/-- The stack has one frame for the start, and at most two for each level of the frame on top. -/
theorem Balanced.length_le {bound : Int} (h : Balanced stack) (hb : 0 ≤ bound)
    (hdepth : ∀ f ∈ stack, f.depth ≤ bound) : (stack.length : Int) ≤ 1 + 2 * bound := by
  cases stack with
  | nil => simp; omega
  | cons f below =>
    have hreferences := h.references_le
    have htop := hdepth f List.mem_cons_self
    have hlength := length_eq_pushed (f :: below)
    rw [h.1.entry] at hlength
    rw [h.1.depth] at htop
    omega

end Expansion

open Expansion

/-- **The depth limit bounds the stack.** At every moment of the expansion of a main text, with any
functions and under any limits, every depth on the stack is between zero and the first depth that is
too deep, and depths never decrease from the bottom to the top. There are no more references on the
stack than calls, and so the stack is no larger than one frame and two more for each of these
depths. -/
theorem stack_bounded (main : Text) (functions : FunctionTable) (maxDepth : Int)
    (limit : Option Int) (m : Moment)
    (h : Moment.LeadsTo maxDepth (.entry limit ⟨functions, .empty⟩ 0 main) m) :
    (∀ f ∈ m.stack, 0 ≤ f.depth ∧ f.depth ≤ max 0 (maxDepth + 1)) ∧
      m.stack.Pairwise (fun upper lower => lower.depth ≤ upper.depth) ∧
      pushed .reference m.stack ≤ pushed .call m.stack ∧
      (m.stack.length : Int) ≤ 1 + 2 * max 0 (maxDepth + 1) := by
  have hdepths : DepthsWithin maxDepth 0 m.stack :=
    h.invariant (fun ht hd => hd.next (step_eq_next_iff.2 ht)) (depthsWithin_start maxDepth 0 _ _)
  have hbalanced : Balanced m.stack :=
    h.invariant (fun ht hb => hb.transition ht) (balanced_entry functions main)
  refine ⟨hdepths, hbalanced.pairwise_depth, hbalanced.references_le, ?_⟩
  exact hbalanced.length_le (Int.le_max_left 0 _) fun f hf => (hdepths f hf).2

/-- The bound is reached. A function hands a fragment on inside another one, so that two calls are
followed by two references, and with a depth limit of one there are five frames. -/
theorem stack_bounded_nested :
    let functions := (Program.parse "f(B):g(lB)\ng(A):A".toList).functions
    ∃ m, Moment.LeadsTo 1 (.entry none ⟨functions, .empty⟩ 0 "f(s)".toList) m ∧
      m.stack.map (·.depth) = [2, 2, 2, 1, 0] ∧
      pushed .reference m.stack = 2 ∧ pushed .reference m.stack ≤ pushed .call m.stack ∧
      m.stack.length = 5 ∧ (m.stack.length : Int) ≤ 1 + 2 * max 0 (1 + 1) := by
  intro functions
  have hafter : (Moment.after 1 5 (.entry none ⟨functions, .empty⟩ 0 "f(s)".toList)).map
      (fun m => (m.stack.map (·.depth), pushed .reference m.stack)) =
        some ([2, 2, 2, 1, 0], 2) := by decide
  obtain ⟨m, hm, hstack⟩ := Option.map_eq_some_iff.1 hafter
  obtain ⟨hdepths, hreferences⟩ := Prod.mk.inj hstack
  have hlength : m.stack.length = 5 := by simpa using congrArg List.length hdepths
  obtain ⟨-, -, hle, hbound⟩ :=
    stack_bounded "f(s)".toList functions 1 none m (Moment.leadsTo_of_after hm)
  exact ⟨m, Moment.leadsTo_of_after hm, hdepths, hreferences, hle, hlength, hbound⟩

end RobotMaze
