import RobotMaze.Proofs.Expansion.Equations
import RobotMaze.Proofs.Program.Expression
import RobotMaze.Proofs.Text.Parts

/-!
# Tables that agree

Expanding a text looks functions up by name, and of a function that it finds it uses the parameters
and the body, but not the place of the definition. So two tables of functions lead to the same
instructions if they agree on the names that can be called. This file says so for every context, in
which each fragment comes with a table of its own.

## Letters that can be called

`CallsWithin R t` says that no letter of `t` can call a function outside of `R`. It looks at all
letters of the text and not only at the calls that stand there now, because an argument that is cut
out of a text may be read differently: a comma cuts through parentheses. A set of letters that holds
those of the text and with each function those of its body is all that an expansion can call, and
tables have to agree on nothing else.

## Main results

* `Definition.bind_agreeOn` — contexts that agree are bound to contexts that agree
* `meaning_eq_of_agreeOn` — a text means the same in contexts that agree
* `expand_eq_of_agreeOn` — and expands to the same
-/

namespace RobotMaze

open Text Expansion

variable {R : Char → Prop}

/-- The letters of a text that can call a function are all among those of `R`. -/
def CallsWithin (R : Char → Prop) (t : Text) : Prop := ∀ c ∈ t, IsCallLetter c → R c

theorem callsWithin_cons {c : Char} {t : Text} :
    CallsWithin R (c :: t) ↔ (IsCallLetter c → R c) ∧ CallsWithin R t := List.forall_mem_cons

theorem CallsWithin.of_part {t u : Text} (h : CallsWithin R u) (ht : t <:+: u) : CallsWithin R t :=
  fun c hc => h c (ht.subset hc)

theorem CallsWithin.of_mem_arguments {rest arg : Text} (h : CallsWithin R rest)
    (harg : arg ∈ Call.arguments (Call.takeArguments rest).1) : CallsWithin R arg :=
  h.of_part ((Call.of_mem_arguments harg).2.2.trans (Call.isInfix_takeArguments_fst rest))

/-! ### Tables and contexts that agree -/

/-- What expansion uses of a definition: all but its place, and the name that it is found by. -/
def Definition.code (d : Definition) : List Name × Text := (d.params, d.body)

/-- Two tables have the same code for the letters of `R`, and the bodies of these call no others. -/
structure FunctionTable.AgreeOn (R : Char → Prop) (F G : FunctionTable) : Prop where
  code_eq : ∀ c, R c → (F.get? [c]).map Definition.code = (G.get? [c]).map Definition.code
  closed : ∀ c d, R c → F.get? [c] = some d → CallsWithin R d.body

/-- Two scopes have the same bindings, with tables that agree in all their fragments. -/
inductive Scope.AgreeOn (R : Char → Prop) : Scope → Scope → Prop
  | empty : AgreeOn R .empty .empty
  | datum {s s' : Scope} (name : Name) (v : Datum) (h : AgreeOn R s s') :
      AgreeOn R (.datum name v s) (.datum name v s')
  | fragment {t : Text} {F G : FunctionTable} {origin origin' s s' : Scope} (name : Name)
      (ht : CallsWithin R t) (hfunctions : FunctionTable.AgreeOn R F G)
      (horigin : AgreeOn R origin origin') (h : AgreeOn R s s') :
      AgreeOn R (.fragment name t F origin s) (.fragment name t G origin' s')

/-- Two contexts have the same bindings, and tables that agree. -/
structure Context.AgreeOn (R : Char → Prop) (context context' : Context) : Prop where
  functions : FunctionTable.AgreeOn R context.functions context'.functions
  scope : Scope.AgreeOn R context.scope context'.scope

/-- Two values are the same, but for the tables in the context of a fragment. -/
inductive Value.AgreeOn (R : Char → Prop) : Value → Value → Prop
  | datum (v : Datum) : AgreeOn R (.datum v) (.datum v)
  | fragment {t : Text} {context context' : Context} (ht : CallsWithin R t)
      (h : Context.AgreeOn R context context') :
      AgreeOn R (.fragment t context) (.fragment t context')

namespace Scope.AgreeOn

variable {s s' : Scope}

/-- A name is bound to values that agree. -/
theorem get? (h : AgreeOn R s s') (name : Name) :
    Option.Rel (Value.AgreeOn R) (s.get? name) (s'.get? name) := by
  induction h with
  | empty => exact .none
  | datum n v h ih =>
    simp only [Scope.get?]
    split
    · exact .some (.datum v)
    · exact ih
  | fragment n ht hf ho h iho ih =>
    simp only [Scope.get?]
    split
    · exact .some (.fragment ht ⟨hf, ho⟩)
    · exact ih

theorem erase (h : AgreeOn R s s') (name : Name) : AgreeOn R (s.erase name) (s'.erase name) := by
  induction h with
  | empty => exact .empty
  | datum n v h ih =>
    simp only [Scope.erase]
    split
    · exact ih
    · exact .datum n v ih
  | fragment n ht hf ho h iho ih =>
    simp only [Scope.erase]
    split
    · exact ih
    · exact .fragment n ht hf ho ih

theorem insert (h : AgreeOn R s s') (name : Name) {v v' : Value} (hv : v.AgreeOn R v') :
    AgreeOn R (s.insert name v) (s'.insert name v') := by
  cases hv with
  | datum v => exact .datum name v (h.erase name)
  | fragment ht hc => exact .fragment name ht hc.functions hc.scope (h.erase name)

/-- A name is bound to the same number. -/
theorem number_eq (h : AgreeOn R s s') (name : Name) : s.number name = s'.number name := by
  have hget := h.get? name
  rw [number, number]
  generalize s.get? name = v, s'.get? name = v' at hget
  obtain hv | _ := hget
  · obtain ⟨v⟩ | _ := hv <;> rfl
  · rfl

/-- A name that is bound to a fragment is bound to the same text, in a context that agrees. -/
theorem get?_fragment (h : AgreeOn R s s') {name : Name} {t : Text} {own : Context}
    (hget : s.get? name = some (.fragment t own)) :
    ∃ own', s'.get? name = some (.fragment t own') ∧ CallsWithin R t ∧ own.AgreeOn R own' := by
  have hv := h.get? name
  rw [hget] at hv
  generalize s'.get? name = v' at hv ⊢
  obtain ⟨_ | ⟨ht, hown⟩⟩ := hv
  exact ⟨_, rfl, ht, hown⟩

/-- No name is bound to a fragment in the second scope only. -/
theorem exists_get?_fragment (h : AgreeOn R s s') {name : Name} {t : Text} {own' : Context}
    (hget' : s'.get? name = some (.fragment t own')) :
    ∃ own, s.get? name = some (.fragment t own) := by
  have hv := h.get? name
  rw [hget'] at hv
  generalize s.get? name = v at hv ⊢
  obtain ⟨_ | _⟩ := hv
  exact ⟨_, rfl⟩

end Scope.AgreeOn

/-! ### Numbers -/

/-- Of a scope an expression sees nothing but numbers. -/
theorem Expression.evaluate_congr {s s' : Scope} (h : ∀ name, s.number name = s'.number name)
    (expr : Text) : evaluate s expr = evaluate s' expr := by
  induction expr using evaluate.induct with
  | case1 x e negative digits hsigned =>
    rw [evaluate_of_signed? hsigned, evaluate_of_signed? hsigned]
  | case2 x e hs c hc => rw [evaluate_of_letter? hs hc, evaluate_of_letter? hs hc, h]
  | case3 x e hs hl hplus ih =>
    rw [evaluate_of_plus hs hl hplus, evaluate_of_plus hs hl hplus, mapM_congr ih]
  | case4 x e hs hl hplus hminus a b hpieces iha ihb =>
    rw [evaluate_of_minus hs hl hplus hpieces, evaluate_of_minus hs hl hplus hpieces, iha, ihb]
  | case5 x e hs hl hplus hminus hpieces =>
    rw [evaluate_of_other hs hl hplus hpieces, evaluate_of_other hs hl hplus hpieces]
  | case6 x e hs hl hplus hminus =>
    have hone : List.splitOn '-' (trim x) = [trim x] := List.splitOn_eq_singleton hminus
    have hpieces : ∀ a b, List.splitOn '-' (trim x) ≠ [a, b] := by simp [hone]
    rw [evaluate_of_other hs hl hplus hpieces, evaluate_of_other hs hl hplus hpieces]

/-! ### Binding -/

namespace Definition

/-- What becomes of two calls: the same, with contexts for their bodies that agree. -/
inductive BindAgreeOn (R : Char → Prop) :
    Except Numeral.TooLong (Option Context) → Except Numeral.TooLong (Option Context) → Prop
  | tooLong (e : Numeral.TooLong) : BindAgreeOn R (.error e) (.error e)
  | dropped : BindAgreeOn R (.ok none) (.ok none)
  | bound {callee callee' : Context} (h : callee.AgreeOn R callee') :
      BindAgreeOn R (.ok (some callee)) (.ok (some callee'))

variable {caller caller' : Context}

theorem bindPairs_agreeOn (hcaller : caller.AgreeOn R caller') {pairs : List (Name × Text)}
    (hpairs : ∀ pair ∈ pairs, CallsWithin R pair.2) {s s' : Scope} (hs : s.AgreeOn R s') :
    BindAgreeOn R (bindPairs caller pairs s) (bindPairs caller' pairs s') := by
  induction pairs generalizing s s' with
  | nil => exact .bound ⟨hcaller.functions, hs⟩
  | cons pair pairs ih =>
    obtain ⟨param, arg⟩ := pair
    obtain ⟨harg, hpairs⟩ := List.forall_mem_cons.1 hpairs
    rw [bindPairs, bindPairs, Expression.evaluate_congr hcaller.scope.number_eq arg]
    split
    · split
      · exact .tooLong _
      · rename_i n _
        split
        · exact .dropped
        · exact ih hpairs (hs.insert param (.datum (.number n)))
    · exact ih hpairs (hs.insert param (.fragment harg hcaller))

/-- **Binding.** Two functions with the same parameters bind the same arguments alike: the same
numeral is too long, both calls are dropped, or their bodies have contexts that agree. -/
theorem bind_agreeOn {d e : Definition} (hparams : d.params = e.params) {args : List Text}
    (hargs : ∀ arg ∈ args, CallsWithin R arg) (hcaller : caller.AgreeOn R caller') :
    BindAgreeOn R (d.bind args caller) (e.bind args caller') := by
  rw [bind, bind, hparams]
  refine bindPairs_agreeOn hcaller (fun pair hpair => ?_) hcaller.scope
  exact hargs pair.2 (List.of_mem_zip hpair).2

end Definition

/-! ### The meaning of a text -/

/-- What a call contributes is the same if it is so for the bodies that it can lead to. -/
theorem contribution_eq_of_agreeOn {maxDepth depth : Int} {context context' : Context} {c : Char}
    {args : List Text} (h : context.AgreeOn R context') (hc : R c)
    (hargs : ∀ arg ∈ args, CallsWithin R arg)
    (hbody : ∀ d callee callee', context.functions.get? [c] = some d →
      d.bind args context = .ok (some callee) → callee.AgreeOn R callee' →
      meaning maxDepth d.body callee (depth + 1) = meaning maxDepth d.body callee' (depth + 1)) :
    contribution maxDepth context depth [c] args =
      contribution maxDepth context' depth [c] args := by
  have hcode := h.functions.code_eq c hc
  rw [contribution, contribution]
  -- The two tables both define the letter, with the same code, or neither does.
  cases hd : context.functions.get? [c] with
  | none =>
    rw [hd, Option.map_none, eq_comm, Option.map_eq_none_iff] at hcode
    rw [hcode]
  | some d =>
    rw [hd, Option.map_some, eq_comm, Option.map_eq_some_iff] at hcode
    obtain ⟨e, he, hcode⟩ := hcode
    obtain ⟨hparams, hbodies⟩ := Prod.ext_iff.1 hcode
    have hbind := Definition.bind_agreeOn hparams.symm hargs h
    have hcalled := fun callee callee' => hbody d callee callee' hd
    simp only [he, show e.body = d.body from hbodies]
    generalize d.bind args context = result, e.bind args context' = result' at hbind hcalled
    obtain ⟨failure⟩ | _ | ⟨hcallee⟩ := hbind
    · rfl
    · rfl
    · exact hcalled _ _ rfl hcallee

/-- **Coincidence.** A text means the same in two contexts that agree on all that it can call. -/
theorem meaning_eq_of_agreeOn (maxDepth : Int) {context context' : Context} {text : Text}
    (h : context.AgreeOn R context') (htext : CallsWithin R text) (depth : Int) :
    meaning maxDepth text context depth = meaning maxDepth text context' depth := by
  induction text, context, depth using meaning_induction maxDepth generalizing context' with
  | nil context depth => rw [meaning_nil, meaning_nil]
  | letter context depth i rest ih =>
    rw [meaning_letter, meaning_letter, ih h (callsWithin_cons.1 htext).2]
  | fragment context depth c rest t own hc hget ihOwn ih =>
    obtain ⟨own', hget', ht, hown⟩ := h.scope.get?_fragment hget
    rw [meaning_fragment hc hget, meaning_fragment hc hget', ihOwn hown ht,
      ih h (callsWithin_cons.1 htext).2]
  | unbound context depth c rest hc hget ih =>
    have hget' : ∀ t own, context'.scope.get? [c] ≠ some (.fragment t own) := by
      intro t own' hget'
      obtain ⟨own, hown⟩ := h.scope.exists_get?_fragment hget'
      exact hget t own hown
    rw [meaning_unbound hc hget, meaning_unbound hc hget', ih h (callsWithin_cons.1 htext).2]
  | tooDeep context depth c rest hc hdepth =>
    rw [meaning_call_of_lt hc hdepth, meaning_call_of_lt hc hdepth]
  | call context depth c rest hc hdepth ihBody ih =>
    obtain ⟨hcR, hrest⟩ := callsWithin_cons.1 htext
    -- Wherever the arguments are cut, they have no letters but those of the text.
    have hargs : ∀ arg ∈ Call.arguments (Call.takeArguments rest).1, CallsWithin R arg :=
      fun arg harg => hrest.of_mem_arguments harg
    have hafter : CallsWithin R (Call.takeArguments rest).2 :=
      hrest.of_part (Call.isSuffix_takeArguments_snd rest).isInfix
    rw [meaning_call_of_le hc hdepth, meaning_call_of_le hc hdepth, ih h hafter,
      contribution_eq_of_agreeOn h (hcR hc) hargs fun d callee callee' hd hbind hagree =>
        ihBody d callee hd hbind hagree (h.functions.closed c d (hcR hc) hd)]
  | skip context depth c rest hi hp hf ih =>
    rw [meaning_skip hi hp hf, meaning_skip hi hp hf, ih h (callsWithin_cons.1 htext).2]

/-- The expander cannot tell contexts apart that agree on all that the text can call. -/
theorem expand_eq_of_agreeOn (maxDepth : Int) (limit : Option Int) {context context' : Context}
    {text : Text} (h : context.AgreeOn R context') (htext : CallsWithin R text) (depth : Int) :
    expand maxDepth limit context depth text = expand maxDepth limit context' depth text := by
  rw [expand_eq_cut_meaning, expand_eq_cut_meaning, meaning_eq_of_agreeOn maxDepth h htext]

end RobotMaze
