import ApiContract.Console.Markup
import ApiContract.Environment
import ApiContract.Trace

/-!
# Reporting to the user

A `Reporter` turns messages into lines. Quiet, it shows only warnings and errors; verbose, it shows
debug messages too. With colours its lines are markup for the console, without they are plain text.

The lines of a log go the same way as the reports, but only when the log is kept.

Main facts: `isSome_written?_of_plain`, that without colours every message has its line, and
`complete_of_plain`, that then all of them are shown.
-/

namespace ApiContract

/-- How messages are shown. -/
structure Reporter where
  plain : Bool
  quiet : Bool
  verbose : Bool
  /-- What the console shows of markup, unless it refuses it. -/
  render : List Char → Option (List Char) := Markup.render

namespace Reporter

/-- The reporter for the surroundings. -/
def ofEnvironment (env : Environment) (plain quiet verbose : Bool)
    (render : List Char → Option (List Char) := Markup.render) : Reporter :=
  ⟨plain || env.asksForPlain, quiet, verbose, render⟩

/-- The reporter that shows only warnings and errors. -/
def silent : Reporter where
  plain := true
  quiet := true
  verbose := false

/-- Whether a channel is shown. -/
def shows (r : Reporter) : Channel → Bool
  | .warning | .error => true
  | .debug => r.verbose
  | .info | .progress | .success | .suggestion => !r.quiet

/-- A message of a channel as plain text. -/
def plainText (channel : Channel) (text : String) : String :=
  match channel with
  | .info | .progress => text
  | .success => "✔ " ++ text
  | .warning => "Warning: " ++ text
  | .error => "Error: " ++ text
  | .suggestion => "→ " ++ text
  | .debug => "[debug] " ++ text

/-- A message of a channel as markup. -/
def markup (channel : Channel) (text : String) : String :=
  match channel with
  | .info => text
  | .progress => "[dim]" ++ text ++ "[/dim]"
  | .success => "[green]✔ " ++ text ++ "[/green]"
  | .warning => "[yellow]Warning:[/yellow] " ++ text
  | .error => "[bold red]Error:[/bold red] " ++ text
  | .suggestion => "[dim]→ " ++ text ++ "[/dim]"
  | .debug => "[dim]\\[debug] " ++ text ++ "[/dim]"

/-- What a report adds to the output; nothing comes of markup that the console refuses. -/
def line? (r : Reporter) (channel : Channel) (text : String) : Option String :=
  if !r.shows channel then some ""
  else if r.plain then some (plainText channel text ++ "\n")
  else (r.render (markup channel text).toList).map fun t => String.ofList t ++ "\n"

theorem line?_plain {r : Reporter} (h : r.plain) (channel : Channel) (text : String) :
    r.line? channel text =
      some (if r.shows channel then plainText channel text ++ "\n" else "") := by
  unfold line?
  cases hs : r.shows channel <;> simp [h]

/-- What a message adds to the output; `log` says whether the log is kept. -/
def written? (r : Reporter) (log : Bool) : Message → Option String
  | .report channel text => r.line? channel text
  | .note topic text => some (if log then topic.name ++ ": " ++ text ++ "\n" else "")

/-- The output of messages up to the first one that cannot be shown, and whether all were shown. -/
def write (r : Reporter) (log : Bool) : List Message → String × Bool
  | [] => ("", true)
  | m :: rest =>
    match r.written? log m with
    | none => ("", false)
    | some line =>
      let (text, complete) := r.write log rest
      (line ++ text, complete)

theorem isSome_written?_of_plain {r : Reporter} (h : r.plain) (log : Bool) (m : Message) :
    (r.written? log m).isSome := by
  cases m with
  | report channel text => exact Option.isSome_of_eq_some (line?_plain h channel text)
  | note topic text => rfl

theorem complete_of_plain {r : Reporter} (h : r.plain) (log : Bool) (messages : List Message) :
    (r.write log messages).2 = true := by
  induction messages with
  | nil => rfl
  | cons m rest ih =>
    obtain ⟨line, hline⟩ := Option.isSome_iff_exists.1 (isSome_written?_of_plain h log m)
    rw [write, hline]
    exact ih

end Reporter

end ApiContract
