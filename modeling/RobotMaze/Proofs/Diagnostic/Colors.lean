import Mathlib.Data.List.Forall2
import RobotMaze.Proofs.Diagnostic.Frame
import RobotMaze.Proofs.Text.Newlines

/-!
# Colours leave the text alone

A diagnostic can be shown with colours or without. This file shows that the two differ in colours
only: if the codes of the palette are taken out of the coloured text, the text without colours is
left. What could go wrong is alignment. Widths are counted in characters, and if one of them were
counted after colouring, the codes would be counted as well.

## Taking codes out

`Theme.uncolored` goes through a text and leaves out every code of the palette. That does not
commute with putting texts together, since the end of one and the start of the next may make a code.
Texts of which it does are in the relation `Shows`: however the output goes on, taking the codes out
of the first text gives the second. Texts without the escape character are shown as they are,
painted texts without their paint, and the relation goes through `++` and `List.intercalate`.

## Two renderings

Both renderings go through the same steps, and a step can fail. `Agree` relates two attempts: both
fail, for the same reason, or both give results, which are related. Nothing that can fail looks at
colours, so the attempts agree step by step, from the marks of a label to the whole diagnostic.

## Main results

* `Theme.shows_paint` — paint is what taking the codes out removes
* `Renderer.agree_frameRows` — the rows of a frame, with colours and without
* `Renderer.format_colored` — whole diagnostics
-/

namespace RobotMaze

open Text

namespace Theme

variable {t u v w : Text} {code : Text} {rows plainRows : List Text}

/-! ### Codes -/

/-- The character that codes start with. -/
def escape : Char := '\x1b'

/-- The codes of the palette. -/
def codes : List Text := palette.map (·.2.toList)

/-- The text without the codes of the palette. -/
def uncolored : Text → Text
  | [] => []
  | c :: rest =>
    match codes.find? (·.isPrefixOf (c :: rest)) with
    | some code => uncolored (rest.drop (code.length - 1))
    | none => c :: uncolored rest
termination_by t => t.length
decreasing_by all_goals simp only [List.length_drop, List.length_cons]; omega

theorem head?_of_mem_codes : ∀ code ∈ codes, code.head? = some escape := by decide

/-- No code is the start of another one. -/
theorem eq_of_isPrefix : ∀ code ∈ codes, ∀ other ∈ codes, code <+: other → code = other := by decide

theorem uncolored_cons {c : Char} (h : c ≠ escape) (rest : Text) :
    uncolored (c :: rest) = c :: uncolored rest := by
  have hnone : codes.find? (·.isPrefixOf (c :: rest)) = none := by
    refine List.find?_eq_none.2 fun code hcode hprefix => h ?_
    obtain ⟨more, hmore⟩ := List.isPrefixOf_iff_prefix.1 hprefix
    have hhead := head?_of_mem_codes code hcode
    have hfirst : (code ++ more).head? = some c := by rw [hmore, List.head?_cons]
    rw [List.head?_append, hhead] at hfirst
    exact (Option.some_inj.1 hfirst).symm
  rw [uncolored, hnone]

theorem uncolored_append_code (h : code ∈ codes) (rest : Text) :
    uncolored (code ++ rest) = uncolored rest := by
  have hsome : (codes.find? (·.isPrefixOf (code ++ rest))).isSome :=
    List.find?_isSome.2 ⟨code, h, List.isPrefixOf_iff_prefix.2 (List.prefix_append code rest)⟩
  -- What is found is a code that the text starts with, and only one code is.
  have hfind : codes.find? (·.isPrefixOf (code ++ rest)) = some code := by
    obtain ⟨found, hfound⟩ := Option.isSome_iff_exists.1 hsome
    have hmem := List.mem_of_find?_eq_some hfound
    have hprefix : found <+: code ++ rest :=
      List.isPrefixOf_iff_prefix.1 (by simpa using List.find?_some hfound)
    rw [hfound, Option.some_inj]
    rcases List.prefix_or_prefix_of_prefix hprefix (List.prefix_append code rest) with hle | hle
    · exact eq_of_isPrefix found hmem code h hle
    · exact (eq_of_isPrefix code h found hmem hle).symm
  obtain ⟨tail, rfl⟩ := List.head?_eq_some_iff.1 (head?_of_mem_codes code h)
  rw [List.cons_append] at hfind ⊢
  rw [uncolored, hfind]
  simp

/-! ### What is shown -/

/-- However the output goes on, without codes the first text is the second. -/
def Shows (colored plain : Text) : Prop :=
  ∀ rest, uncolored (colored ++ rest) = plain ++ uncolored rest

theorem Shows.uncolored_eq (h : Shows t u) : uncolored t = u := by
  have hnil := h []
  rw [List.append_nil, uncolored, List.append_nil] at hnil
  exact hnil

theorem Shows.append (h : Shows t u) (h' : Shows v w) : Shows (t ++ v) (u ++ w) := by
  intro rest
  rw [List.append_assoc, h, h', List.append_assoc]

theorem Shows.cons {c : Char} (h : Shows t u) (hc : c ≠ escape) : Shows (c :: t) (c :: u) := by
  intro rest
  rw [List.cons_append, uncolored_cons hc, h, List.cons_append]

theorem Shows.ite {p : Prop} [Decidable p] (h : Shows t u) (h' : Shows v w) :
    Shows (if p then t else v) (if p then u else w) := by
  split
  · exact h
  · exact h'

/-- A text without the escape character is shown as it is. -/
theorem shows_self (h : escape ∉ t) : Shows t t := by
  induction t with
  | nil => intro rest; rfl
  | cons c t ih =>
    rw [List.mem_cons, not_or] at h
    exact (ih h.2).cons (Ne.symm h.1)

theorem shows_code (h : code ∈ codes) : Shows code [] := uncolored_append_code h

theorem mem_codes_of_lookup {key code : String} (h : palette.lookup key = some code) :
    code.toList ∈ codes := by
  obtain ⟨before, after, hpalette, -⟩ := List.lookup_eq_some_iff.1 h
  refine List.mem_map.2 ⟨(key, code), ?_, rfl⟩
  rw [hpalette]
  exact List.mem_append_right _ List.mem_cons_self

/-- **Painted text** is shown without its paint, whether the palette has a colour for it or not. -/
theorem shows_paint (key : String) (h : escape ∉ t) :
    Shows (paint ⟨true⟩ key t) (paint ⟨false⟩ key t) := by
  have hcolor : Shows ((palette.lookup key).getD "").toList [] := by
    cases hkey : palette.lookup key with
    | none => exact shows_self List.not_mem_nil
    | some code => exact shows_code (mem_codes_of_lookup hkey)
  have hreset : Shows reset.toList [] := shows_code (by decide)
  have hall := (hcolor.append (shows_self h)).append hreset
  rw [List.nil_append, List.append_nil] at hall
  exact hall

theorem shows_intercalate (h : List.Forall₂ Shows rows plainRows) :
    Shows (List.intercalate ['\n'] rows) (List.intercalate ['\n'] plainRows) := by
  induction h with
  | nil => exact shows_self List.not_mem_nil
  | cons hfirst hrest ih =>
    cases hrest with
    | nil =>
      rw [List.intercalate_singleton, List.intercalate_singleton]
      exact hfirst
    | cons _ _ =>
      rw [List.intercalate_cons_cons, List.intercalate_cons_cons]
      exact (hfirst.append (shows_self (by decide))).append ih

end Theme

/-- The strings of a diagnostic are without the escape character. -/
structure Diagnostic.Plain (d : Diagnostic) : Prop where
  severity : Theme.escape ∉ d.severity.toList
  message : Theme.escape ∉ d.message.toList
  remarks : ∀ label ∈ d.labels, ∀ message ∈ label.message, Theme.escape ∉ message.toList
  notes : ∀ note ∈ d.notes, Theme.escape ∉ note.toList

namespace Renderer

open Theme Marks

variable {r : Renderer} {label : Label} {labels : List Label} {d : Diagnostic} {t : Text}

/-! ### Texts without the escape character -/

theorem escape_notMem_replicate (n : Nat) : escape ∉ List.replicate n ' ' := by
  intro h
  exact absurd (List.eq_of_mem_replicate h) (by decide)

theorem escape_notMem_append {t u : Text} (ht : escape ∉ t) (hu : escape ∉ u) :
    escape ∉ t ++ u := by
  rw [List.mem_append, not_or]
  exact ⟨ht, hu⟩

theorem escape_notMem_leftpad (width : Nat) (h : escape ∉ t) :
    escape ∉ List.leftpad width ' ' t :=
  escape_notMem_append (escape_notMem_replicate _) h

theorem escape_notMem_decimal (n : Int) : escape ∉ decimal n := by
  have hdigits : ∀ m : Nat, escape ∉ m.repr.toList := by
    intro m h
    rw [Nat.toList_repr] at h
    exact absurd (Nat.isDigit_of_mem_toDigits (by decide) (by decide) h) (by decide)
  cases n with
  | ofNat m => exact hdigits m
  | negSucc m =>
    have hsign : decimal (Int.negSucc m) = "-".toList ++ (m + 1).repr.toList := String.toList_append
    rw [hsign]
    exact escape_notMem_append (by decide) (hdigits (m + 1))

/-- Lines hold characters of the text only. -/
theorem mem_of_mem_splitLines {c : Char} {line : Text} (hline : line ∈ splitLines t)
    (hc : c ∈ line) : c ∈ t :=
  (flatten_splitLines_sublist t).subset (List.mem_flatten_of_mem hline hc)

/-- An attempt in two parts that gives a result has one from each. -/
theorem exists_of_bind_eq_ok {α β : Type} {x : Except RenderError α} {f : α → Except RenderError β}
    {b : β} (h : x >>= f = .ok b) : ∃ a, x = .ok a ∧ f a = .ok b := by
  cases x with
  | error e => cases h
  | ok a => exact ⟨a, rfl, h⟩

/-- Expanding tabs brings nothing but blanks. -/
theorem mem_of_expandFrom {tabWidth col : Int} {line : Text} {expanded : Expanded} {c : Char}
    (h : expandFrom tabWidth col line = .ok expanded) (hc : c ∈ expanded.text) :
    c = ' ' ∨ c ∈ line := by
  induction line generalizing col expanded with
  | nil =>
    cases h
    cases hc
  | cons first rest ih =>
    rw [expandFrom] at h
    split at h
    · obtain ⟨n, -, h⟩ := exists_of_bind_eq_ok h
      obtain ⟨tail, htail, h⟩ := exists_of_bind_eq_ok h
      cases h
      rcases List.mem_append.1 hc with hc | hc
      · exact .inl (List.eq_of_mem_replicate hc)
      · exact (ih htail hc).imp_right (List.mem_cons_of_mem _)
    · obtain ⟨tail, htail, h⟩ := exists_of_bind_eq_ok h
      cases h
      rcases List.mem_cons.1 hc with rfl | hc
      · exact .inr List.mem_cons_self
      · exact (ih htail hc).imp_right (List.mem_cons_of_mem _)

theorem escape_notMem_repeated (n : Int) (h : escape ∉ t) : escape ∉ repeated n t := by
  intro hmem
  obtain ⟨copy, hcopy, hmem⟩ := List.mem_flatten.1 hmem
  rw [List.eq_of_mem_replicate hcopy] at hmem
  exact h hmem

theorem escape_notMem_marks {line : Expanded} (h : marks line label = .ok t) : escape ∉ t := by
  obtain ⟨x0, -, h⟩ := exists_of_bind_eq_ok h
  obtain ⟨x1, -, h⟩ := exists_of_bind_eq_ok h
  cases h
  have hmark : escape ∉ [if label.isPrimary then '^' else '~'] := by
    cases label.isPrimary <;> decide
  exact escape_notMem_append (escape_notMem_append (escape_notMem_repeated _ (by decide))
    (escape_notMem_repeated _ hmark)) (escape_notMem_repeated _ (by decide))

/-! ### Two attempts -/

/-- Two attempts go the same way: both fail for the same reason, or both give results that are
related. -/
inductive Agree {α β : Type} (R : α → β → Prop) :
    Except RenderError α → Except RenderError β → Prop
  | error (e : RenderError) : Agree R (.error e) (.error e)
  | ok {a : α} {b : β} (h : R a b) : Agree R (.ok a) (.ok b)

theorem Agree.bind {α β γ δ : Type} {R : α → β → Prop} {S : γ → δ → Prop}
    {x : Except RenderError α} {y : Except RenderError β} {f : α → Except RenderError γ}
    {g : β → Except RenderError δ} (h : Agree R x y) (hfg : ∀ a b, R a b → Agree S (f a) (g b)) :
    Agree S (x >>= f) (y >>= g) := by
  cases h with
  | error e => exact .error e
  | ok hab => exact hfg _ _ hab

/-- The same attempt, with what is known of its result. -/
theorem agree_self {α : Type} {P : α → Prop} {x : Except RenderError α}
    (h : ∀ a, x = .ok a → P a) : Agree (fun a b => a = b ∧ P a) x x := by
  cases x with
  | error e => exact .error e
  | ok a => exact .ok ⟨rfl, h a rfl⟩

theorem agree_mapM {α β : Type} {R : β → β → Prop} {f g : α → Except RenderError β} {l : List α}
    (h : ∀ a ∈ l, Agree R (f a) (g a)) : Agree (List.Forall₂ R) (l.mapM f) (l.mapM g) := by
  induction l with
  | nil => exact .ok .nil
  | cons a l ih =>
    rw [List.mapM_cons, List.mapM_cons]
    refine (h a List.mem_cons_self).bind fun b b' hb => ?_
    refine (ih fun c hc => h c (List.mem_cons_of_mem a hc)).bind fun bs bs' hbs => ?_
    exact .ok (.cons hb hbs)

/-! ### Two renderings -/

/-- The renderer with colours switched on or off. -/
def colored (r : Renderer) (on : Bool) : Renderer := { r with theme := ⟨on⟩ }

/-- What a label says is without the escape character. -/
def PlainRemarks (labels : List Label) : Prop :=
  ∀ label ∈ labels, ∀ message ∈ label.message, escape ∉ message.toList

theorem escape_notMem_remark (h : ∀ message ∈ label.message, escape ∉ message.toList) :
    escape ∉ remark label := by
  rw [remark]
  cases hmessage : label.message with
  | none => exact List.not_mem_nil
  | some message =>
    simp only
    split
    · exact List.not_mem_nil
    · exact escape_notMem_append (t := [' ']) (by decide) (h message hmessage)

theorem shows_ellipsisRow (r : Renderer) (width : Nat) :
    Shows ((r.colored true).ellipsisRow width) ((r.colored false).ellipsisRow width) := by
  have hdots := shows_paint "gutter" (escape_notMem_leftpad width (t := ['…']) (by decide))
  exact (hdots.append (shows_self (by decide))).ite (shows_self (by decide))

theorem shows_sourceRow (r : Renderer) (width number : Nat) (h : escape ∉ t) :
    Shows ((r.colored true).sourceRow width number t)
      ((r.colored false).sourceRow width number t) := by
  have hnumber := shows_paint "gutter" (escape_notMem_leftpad width (escape_notMem_decimal number))
  have hbar : Shows " | ".toList " | ".toList := shows_self (by decide)
  exact (((hnumber.append hbar).append (shows_self h)).cons (by decide)).ite (shows_self h)

theorem agree_labelRow (r : Renderer) (width : Nat) (line : Expanded)
    (h : ∀ message ∈ label.message, escape ∉ message.toList) :
    Agree Shows ((r.colored true).labelRow width line label)
      ((r.colored false).labelRow width line label) := by
  have hpad := shows_paint "gutter"
    (escape_notMem_append (escape_notMem_replicate (width + 1)) (u := " | ".toList) (by decide))
  have hgutter := hpad.ite (p := r.showGutter) (shows_self List.not_mem_nil)
  have hremark := shows_self (escape_notMem_remark h)
  refine (agree_self fun _ => escape_notMem_marks).bind ?_
  rintro drawn _ ⟨rfl, hdrawn⟩
  exact .ok ((hgutter.append (shows_paint _ hdrawn)).append hremark)

theorem agree_lineRows (r : Renderer) (width number : Nat) {line : Text}
    (h : PlainRemarks labels) (hline : escape ∉ line) :
    Agree (List.Forall₂ Shows) ((r.colored true).lineRows width labels number line)
      ((r.colored false).lineRows width labels number line) := by
  have hexpanded : ∀ expanded, expandTabs r.tabWidth line = .ok expanded →
      escape ∉ expanded.text := by
    intro expanded hexpanded hmem
    rcases mem_of_expandFrom hexpanded hmem with hblank | hmem
    · exact absurd hblank (by decide)
    · exact hline hmem
  refine (agree_self hexpanded).bind ?_
  rintro expanded _ ⟨rfl, hplain⟩
  have hlabels : ∀ label ∈ labelsOn labels number,
      Agree Shows ((r.colored true).labelRow width expanded label)
        ((r.colored false).labelRow width expanded label) := fun label hlabel =>
    agree_labelRow r width expanded (h label (mem_labelsOn.1 hlabel).1)
  refine (agree_mapM hlabels).bind fun rows plainRows hrows => ?_
  exact .ok (.cons (shows_sourceRow r width number hplain) hrows)

theorem agree_codeRows (r : Renderer) (width : Nat) {lines : List Text} (h : PlainRemarks labels)
    (hlines : ∀ line ∈ lines, escape ∉ line) (previous : Option Nat) (numbers : List Nat) :
    Agree (List.Forall₂ Shows) ((r.colored true).codeRows width labels lines previous numbers)
      ((r.colored false).codeRows width labels lines previous numbers) := by
  induction numbers generalizing previous with
  | nil => exact .ok .nil
  | cons number numbers ih =>
    have hline : escape ∉ (lines[number - 1]?).getD [] := by
      cases hget : lines[number - 1]? with
      | none => exact List.not_mem_nil
      | some line => exact hlines line (List.mem_of_getElem? hget)
    have hgap : List.Forall₂ Shows
        (if previous.any (· + 1 ≠ number) then [(r.colored true).ellipsisRow width] else [])
        (if previous.any (· + 1 ≠ number) then [(r.colored false).ellipsisRow width] else []) := by
      split
      · exact .cons (shows_ellipsisRow r width) .nil
      · exact .nil
    refine (agree_lineRows r width number h hline).bind fun rows plainRows hrows => ?_
    refine (ih (some number)).bind fun rest plainRest hrest => ?_
    exact .ok (List.rel_append (List.rel_append hgap hrows) hrest)

theorem escape_notMem_bar (r : Renderer) : escape ∉ r.bar := by
  rw [bar]
  split <;> decide

theorem escape_notMem_strayRow (r : Renderer)
    (h : ∀ message ∈ label.message, escape ∉ message.toList) : escape ∉ r.strayRow label := by
  have hline := escape_notMem_append (escape_notMem_append (escape_notMem_bar r)
    (u := " (line ".toList) (by decide)) (escape_notMem_decimal label.span.line)
  exact escape_notMem_append (escape_notMem_append hline (by decide)) (escape_notMem_remark h)

/-- Rows that are made alike show one another. -/
theorem forall₂_map {α : Type} {f g : α → Text} {l : List α} (h : ∀ a ∈ l, Shows (f a) (g a)) :
    List.Forall₂ Shows (l.map f) (l.map g) := by
  rw [List.forall₂_map_left_iff, List.forall₂_map_right_iff, List.forall₂_same]
  exact h

/-- **The rows of a frame** with colours show those without. -/
theorem agree_frameRows (r : Renderer) {lines : List Text} (h : PlainRemarks labels)
    (hlines : ∀ line ∈ lines, escape ∉ line) :
    Agree (List.Forall₂ Shows) ((r.colored true).frameRows labels lines)
      ((r.colored false).frameRows labels lines) := by
  have hstray : ∀ label ∈ strayLabels labels lines.length,
      Shows ((r.colored true).strayRow label) ((r.colored false).strayRow label) := by
    intro label hlabel
    have hmem : label ∈ labels := (List.mem_filter.1 ((List.mergeSort_perm _ _).mem_iff.1 hlabel)).1
    exact shows_self (escape_notMem_strayRow _ (h label hmem))
  refine (agree_codeRows r _ h hlines none _).bind fun rows plainRows hrows => ?_
  exact .ok (.cons (shows_self (escape_notMem_bar _)) (List.rel_append hrows (forall₂_map hstray)))

/-! ### Whole diagnostics -/

theorem shows_header (r : Renderer) {name : Text} (hd : d.Plain) (hname : escape ∉ name) :
    Shows ((r.colored true).header d name) ((r.colored false).header d name) := by
  have hhead := ((shows_paint d.severity hd.severity).append
    (shows_self (t := ": ".toList) (by decide))).append (shows_self hd.message)
  simp only [header]
  cases d.primary with
  | none => exact hhead
  | some label =>
    have hname := (hhead.append (shows_self (t := "\n  --> ".toList) (by decide))).append
      (shows_self hname)
    have hcolon : Shows [':'] [':'] := shows_self (by decide)
    have hline := (hname.append hcolon).append
      (shows_self (escape_notMem_decimal label.span.normalized.line))
    exact (hline.append hcolon).append (shows_self (escape_notMem_decimal _))

theorem shows_noteRow (r : Renderer) {note : String} (h : escape ∉ note.toList) :
    Shows ((r.colored true).noteRow note) ((r.colored false).noteRow note) := by
  have hmark : Shows "  = ".toList "  = ".toList := shows_self (by decide)
  have hnote := hmark.append (shows_paint "note" (t := "note".toList) (by decide))
  exact (hnote.append (shows_self (by decide))).append (shows_self h)

theorem agree_format (r : Renderer) {source name : Text} (hd : d.Plain) (hsource : escape ∉ source)
    (hname : escape ∉ name) :
    Agree Shows ((r.colored true).format d source name)
      ((r.colored false).format d source name) := by
  have hlines : ∀ line ∈ splitLines source, escape ∉ line := fun line hline hmem =>
    hsource (mem_of_mem_splitLines hline hmem)
  have hall : ∀ rows plainRows, List.Forall₂ Shows rows plainRows →
      Shows
        (List.intercalate ['\n'] ((r.colored true).header d name ::
          (rows ++ d.notes.map (r.colored true).noteRow)))
        (List.intercalate ['\n'] ((r.colored false).header d name ::
          (plainRows ++ d.notes.map (r.colored false).noteRow))) := by
    intro rows plainRows hrows
    refine shows_intercalate (.cons (shows_header r hd hname) (List.rel_append hrows ?_))
    exact forall₂_map fun note hnote => shows_noteRow r (hd.notes note hnote)
  rw [format, format]
  split
  · exact .ok (hall [] [] .nil)
  · refine (agree_frameRows r hd.remarks hlines).bind fun rows plainRows hrows => ?_
    exact .ok (hall rows plainRows hrows)

/-- **Colours leave the text alone.** If no string has the escape character, showing a diagnostic
with colours fails exactly if showing it without them fails, and for the same reason; and if it does
not fail, the coloured text without the codes of the palette is the text without colours. -/
theorem format_colored (r : Renderer) (d : Diagnostic) (source name : Text) (hd : d.Plain)
    (hsource : escape ∉ source) (hname : escape ∉ name) :
    let on := { r with theme := ⟨true⟩ }
    let off := { r with theme := ⟨false⟩ }
    (∀ e, on.format d source name = .error e ↔ off.format d source name = .error e) ∧
      ∀ t, on.format d source name = .ok t → off.format d source name = .ok (uncolored t) := by
  intro on off
  have hagree := agree_format r hd hsource hname
  change Agree Shows (on.format d source name) (off.format d source name) at hagree
  generalize on.format d source name = x at hagree ⊢
  generalize off.format d source name = y at hagree ⊢
  cases hagree with
  | error e =>
    refine ⟨fun e' => ?_, fun t ht => ?_⟩
    · simp only [Except.error.injEq]
    · cases ht
  | ok hshows =>
    refine ⟨fun e => ?_, fun t ht => ?_⟩
    · simp only [reduceCtorEq]
    cases ht
    rw [hshows.uncolored_eq]

/-- The palette has no colour for `fatal` and for labels of the kind `odd`; they are painted all the
same. With a tab and no tab stops both renderings fail. -/
theorem format_colored_unknown :
    let d : Diagnostic :=
      { severity := "fatal", message := "m", labels := [⟨⟨1, 1, 2⟩, some "here", "odd"⟩] }
    d.Plain ∧
      (∃ t, format { theme := ⟨true⟩ } d "fg".toList ['p'] = .ok t ∧
        format { theme := ⟨false⟩ } d "fg".toList ['p'] = .ok (uncolored t)) ∧
      format { tabWidth := 0, theme := ⟨false⟩ } d ['\t'] ['p'] = .error .zeroTabWidth := by
  intro d
  have hd : d.Plain := ⟨by decide, by decide, by decide, by decide⟩
  obtain ⟨t, ht⟩ : ∃ t, format { theme := ⟨true⟩ } d "fg".toList ['p'] = .ok t := ⟨_, rfl⟩
  have hshown := (format_colored {} d "fg".toList ['p'] hd (by decide) (by decide)).2 t ht
  have hfails := (format_colored { tabWidth := 0 } d ['\t'] ['p'] hd (by decide) (by decide)).1
    .zeroTabWidth
  have hon : format { tabWidth := 0, theme := ⟨true⟩ } d ['\t'] ['p'] = .error .zeroTabWidth := by
    decide +kernel
  exact ⟨hd, ⟨t, ht, hshown⟩, hfails.1 hon⟩

end Renderer

end RobotMaze
