import DeclaredSource.Proofs.Source.Layout

/-!
# What a run of a writer comes to

A run of a writer is cut at its line ends. Every piece of it becomes one line: nothing when all that
it writes is empty, and otherwise what it writes, after as many tabs as the depth was when its first
text came. The depth is carried from piece to piece, and once a line has text on it nothing but its
end is looked at any more. Nothing that was written is ever taken back.
-/

namespace DeclaredSource.Source.Writer

inductive Step where
  | indent
  | dedent
  | newline
  | write (text : String)
  deriving DecidableEq, Repr

/-- A step, or writing a line with its end. -/
inductive Call where
  | single (step : Step)
  | writeLine (text : String)
  deriving DecidableEq, Repr

def perform (writer : Writer) : Step → Writer
  | .indent => writer.indent
  | .dedent => writer.dedent
  | .newline => writer.newline
  | .write text => writer.write text

def performAll (writer : Writer) (steps : List Step) : Writer :=
  steps.foldl perform writer

def answer (writer : Writer) : Call → Writer
  | .single step => writer.perform step
  | .writeLine text => writer.writeLine text

/-- A new writer after all calls. -/
def afterAll (calls : List Call) : Writer :=
  calls.foldl answer empty

def Call.steps : Call → List Step
  | .single step => [step]
  | .writeLine text => [.write text, .newline]

theorem answer_eq (writer : Writer) (call : Call) :
    writer.answer call = writer.performAll call.steps := by
  cases call <;> rfl

theorem performAll_append (writer : Writer) (steps steps' : List Step) :
    writer.performAll (steps ++ steps') = (writer.performAll steps).performAll steps' :=
  List.foldl_append

theorem afterAll_append (calls calls' : List Call) :
    afterAll (calls ++ calls') = (afterAll calls).performAll (calls'.flatMap Call.steps) := by
  rw [afterAll, List.foldl_append, performAll, List.foldl_flatMap]
  congr 1
  funext writer call
  exact answer_eq writer call

theorem afterAll_eq (calls : List Call) :
    afterAll calls = empty.performAll (calls.flatMap Call.steps) :=
  afterAll_append [] calls

def Step.text : Step → String
  | .write text => text
  | _ => ""

def Step.depthFrom (depth : Nat) : Step → Nat
  | .indent => depth + 1
  | .dedent => depth - 1
  | _ => depth

def depthAfter (depth : Nat) (steps : List Step) : Nat :=
  steps.foldl Step.depthFrom depth

/-- All that is written, one text after the other. -/
def written (steps : List Step) : String :=
  String.join (steps.map Step.text)

/-- The line that a piece becomes which begins at a depth. -/
def pieceText (depth : Nat) (piece : List Step) : String :=
  if ∀ step ∈ piece, step.text = "" then ""
  else tabs (depthAfter depth (piece.takeWhile (·.text = ""))) ++ written piece

/-- Every piece begins at the depth that the one before it ends at. -/
def pieceTexts (depth : Nat) : List (List Step) → List String
  | [] => []
  | piece :: rest => pieceText depth piece :: pieceTexts (depthAfter depth piece) rest

theorem written_cons (step : Step) (steps : List Step) :
    written (step :: steps) = step.text ++ written steps := by
  rw [written, List.map_cons, String.join_cons, written]

theorem pieceText_cons_of_silent {step : Step} (h : step.text = "") (depth : Nat)
    (rest : List Step) :
    pieceText depth (step :: rest) = pieceText (step.depthFrom depth) rest := by
  have hlead : (step :: rest).takeWhile (·.text = "") =
      step :: rest.takeWhile (·.text = "") :=
    List.takeWhile_cons_of_pos (by simpa using h)
  simp only [pieceText, hlead, written_cons, h, String.empty_append, List.forall_mem_cons,
    true_and]
  rfl

theorem pieceText_cons_of_text {step : Step} (h : step.text ≠ "") (depth : Nat)
    (rest : List Step) :
    pieceText depth (step :: rest) = tabs depth ++ (step.text ++ written rest) := by
  have hlead : (step :: rest).takeWhile (·.text = "") = [] :=
    List.takeWhile_cons_of_neg (by simpa using h)
  have hsilent : ¬ ∀ step' ∈ step :: rest, step'.text = "" :=
    fun hall ↦ h (hall step List.mem_cons_self)
  rw [pieceText, if_neg hsilent, hlead, written_cons]
  rfl

section

variable {writer : Writer} {step : Step}

theorem perform_of_silent (hend : step ≠ .newline) (h : step.text = "") :
    writer.perform step = { writer with depth := step.depthFrom writer.depth } := by
  cases step with
  | indent | dedent => rfl
  | newline => exact absurd rfl hend
  | write text =>
    obtain rfl : text = "" := h
    exact writer.write_empty

theorem perform_of_text (h : step.text ≠ "") :
    writer.perform step =
      ⟨writer.text ++ (if writer.atLineStart then tabs writer.depth else "") ++ step.text,
        step.depthFrom writer.depth, false⟩ := by
  cases step with
  | write text => exact if_neg h
  | indent | dedent | newline => exact absurd rfl h

theorem begun_write {text : String} (h : text ≠ "") (writer : Writer) :
    (writer.write text).atLineStart = false := by
  rw [write, if_neg h]

/-- No tabs are put on a line that has begun. -/
theorem perform_of_begun (hbegun : writer.atLineStart = false) (hend : step ≠ .newline) :
    writer.perform step = ⟨writer.text ++ step.text, step.depthFrom writer.depth, false⟩ := by
  by_cases h : step.text = ""
  · rw [perform_of_silent hend h, h, String.append_empty, hbegun]
  · rw [perform_of_text h, hbegun, if_neg (by decide), String.append_empty]

end

theorem performAll_of_begun {writer : Writer} {steps : List Step}
    (hbegun : writer.atLineStart = false) (hends : .newline ∉ steps) :
    writer.performAll steps =
      ⟨writer.text ++ written steps, depthAfter writer.depth steps, false⟩ := by
  induction steps generalizing writer with
  | nil =>
    rw [← hbegun, written, List.map_nil, String.join_nil, String.append_empty]
    rfl
  | cons step rest ih =>
    rw [List.mem_cons, not_or] at hends
    calc
      writer.performAll (step :: rest) =
          performAll ⟨writer.text ++ step.text, step.depthFrom writer.depth, false⟩ rest := by
        rw [← perform_of_begun hbegun (Ne.symm hends.1)]
        rfl
      _ = _ := by
        rw [ih rfl hends.2, written_cons, String.append_assoc]
        rfl

/-- A piece adds its line to what was written before, and nothing else. -/
theorem performAll_piece (text : String) (depth : Nat) {piece : List Step}
    (hends : .newline ∉ piece) :
    ∃ atLineStart, (fresh text depth).performAll piece =
      ⟨text ++ pieceText depth piece, depthAfter depth piece, atLineStart⟩ := by
  induction piece generalizing depth with
  | nil => exact ⟨true, by simp [performAll, pieceText, depthAfter, fresh]⟩
  | cons step rest ih =>
    rw [List.mem_cons, not_or] at hends
    have hfirst : (fresh text depth).performAll (step :: rest) =
        ((fresh text depth).perform step).performAll rest := rfl
    by_cases h : step.text = ""
    · obtain ⟨atLineStart, hrest⟩ := ih (step.depthFrom depth) hends.2
      refine ⟨atLineStart, ?_⟩
      rw [hfirst, perform_of_silent (Ne.symm hends.1) h, pieceText_cons_of_silent h]
      exact hrest
    · refine ⟨false, ?_⟩
      rw [hfirst, perform_of_text h, performAll_of_begun rfl hends.2, pieceText_cons_of_text h]
      simp [fresh, depthAfter, String.append_assoc]

/-- By the first line end there is: what follows it begins on a line of its own. -/
theorem text_performAll (text : String) (depth : Nat) (steps : List Step) :
    ((fresh text depth).performAll steps).text =
      text ++ "\n".intercalate (pieceTexts depth (steps.splitOn .newline)) := by
  by_cases hends : .newline ∈ steps
  · obtain ⟨piece, rest, rfl, hpiece⟩ := List.eq_append_cons_of_mem hends
    obtain ⟨atLineStart, hrun⟩ := performAll_piece text depth hpiece
    have hrest := text_performAll (text ++ pieceText depth piece ++ "\n")
      (depthAfter depth piece) rest
    have hnext : (fresh text depth).performAll (piece ++ .newline :: rest) =
        (fresh (text ++ pieceText depth piece ++ "\n") (depthAfter depth piece)).performAll
          rest := by
      rw [performAll_append, hrun]
      rfl
    have hpieces : pieceTexts (depthAfter depth piece) (rest.splitOn .newline) ≠ [] := by
      obtain ⟨first, others, heq⟩ :=
        List.exists_cons_of_ne_nil (List.splitOn_ne_nil Step.newline rest)
      rw [heq]
      exact List.cons_ne_nil _ _
    rw [hnext, hrest, List.splitOn_append_cons_self_of_not_mem hpiece, pieceTexts,
      String.intercalate_cons_of_ne_nil hpieces]
    simp only [String.append_assoc]
  · obtain ⟨atLineStart, hrun⟩ := performAll_piece text depth hends
    rw [hrun, List.splitOn_eq_singleton hends, pieceTexts, pieceTexts,
      String.intercalate_singleton]
termination_by steps.length

theorem perform_extends (writer : Writer) (step : Step) :
    writer.text.toList <+: (writer.perform step).text.toList := by
  by_cases hend : step = .newline
  · rw [hend, perform, newline, String.toList_append]
    exact List.prefix_append _ _
  by_cases h : step.text = ""
  · simp [perform_of_silent hend h]
  · rw [perform_of_text h, String.append_assoc, String.toList_append]
    exact List.prefix_append _ _

theorem performAll_extends (writer : Writer) (steps : List Step) :
    writer.text.toList <+: (writer.performAll steps).text.toList := by
  induction steps generalizing writer with
  | nil => exact List.prefix_refl _
  | cons step rest ih => exact (perform_extends writer step).trans (ih (writer.perform step))

/-- The text of a run is the lines that its pieces become, joined by line feeds. Once a text has
begun a line, whatever comes before the next line end is put right behind it: line feeds inside of
texts begin no new piece, and a change of the depth makes no difference any more. What has been
written begins whatever is written later. -/
theorem afterAll_text_eq_lines (calls : List Call) :
    (afterAll calls).text =
        "\n".intercalate (pieceTexts 0 ((calls.flatMap Call.steps).splitOn .newline)) ∧
      (∀ text rest, text ≠ "" → .newline ∉ rest.flatMap Call.steps →
        (afterAll (calls ++ .single (.write text) :: rest)).text =
          (afterAll (calls ++ [.single (.write text)])).text ++
            written (rest.flatMap Call.steps)) ∧
      ∀ call, (afterAll calls).text.toList <+: (afterAll (calls ++ [call])).text.toList := by
  refine ⟨?_, fun text rest htext hends ↦ ?_, fun call ↦ ?_⟩
  · rw [afterAll_eq, show empty = fresh "" 0 from rfl, text_performAll, String.empty_append]
  · have hbegun : (afterAll (calls ++ [.single (.write text)])).atLineStart = false := by
      rw [afterAll_append]
      exact begun_write htext _
    rw [List.append_cons, afterAll_append, performAll_of_begun hbegun hends]
  · rw [afterAll_append]
    exact performAll_extends _ _

/-- The line begins at depth one, though it ends at depth zero. -/
theorem afterAll_text_eq_lines_outdented :
    (afterAll [.single .indent, .single (.write ""), .single (.write "a\nb"), .single .dedent,
      .single .dedent, .single (.write "c")]).text = "\ta\nb" ++ "c" :=
  (afterAll_text_eq_lines [.single .indent, .single (.write "")]).2.1 "a\nb"
    [.single .dedent, .single .dedent, .single (.write "c")] (by decide) (by decide)

end DeclaredSource.Source.Writer
