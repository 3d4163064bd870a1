/-
What a terminal shows of a text: the text without control characters and without the sequences that command the
terminal instead of being shown.

- A sequence opens with the escape character. `Terminal.next` says what it has become after a further character.
- What is shown comes in runs. Plain text opens a run, and so does a layout character (tab, line feed, form feed,
  carriage return) within a sequence of escape or of control. A run lasts until the next control that is not layout.
- A run within a sequence does not end it: `Terminal.resume` says that the sequence goes on behind the run, unless the
  run holds a character beyond ASCII.
- Within a string that a sequence carries nothing is shown, layout neither.

`Terminal.display` is the text that is left. It holds plain characters only (`isPlain_of_mem_shown`), and a text of
plain characters is left as it is (`shown_of_isPlain`).
-/
namespace RackMap.Text

/-- what a terminal is reading -/
inductive Terminal where
  /-- text to be shown -/
  | ground
  /-- an escape sequence, so far without intermediate characters -/
  | escape
  | escapeIntermediate
  /-- a control sequence, which `[` opens -/
  | control
  /-- a command to the operating system, which `]` opens -/
  | command
  /-- the head of a device control string, which `P` opens -/
  | device
  | deviceParameter
  | deviceIntermediate
  /-- a string that is not shown -/
  | string
deriving DecidableEq, Repr

/-- the controls that are shown: tab, line feed, form feed and carriage return -/
def isLayout (c : Char) : Bool := c == '\t' || c == '\n' || c == '\x0c' || c == '\r'

/-- whether `c` is layout or no control; the controls are those of ASCII -/
def isPlain (c : Char) : Bool := isLayout c || (0x20 ≤ c.toNat && c.toNat != 0x7F)

/-- whether the byte 9C, which closes a string, is in the encoding of `c` -/
def closesString (c : Char) : Bool := (String.utf8EncodeChar c).contains 0x9C

namespace Terminal

/-- whether `c` opens a run -/
def opens (t : Terminal) (c : Char) : Bool :=
  match t with
  | ground => isPlain c
  | escape | escapeIntermediate | control => isLayout c
  | _ => false

/-- what is being read after `c`, which is shown -/
def resume (t : Terminal) (c : Char) : Terminal := if c.toNat < 0x80 then t else ground

/-- what is being read after the first character of an escape sequence -/
def ofEscape (c : Char) : Terminal :=
  match c with
  | '[' => control
  | ']' => command
  | 'P' => device
  | 'X' | '^' | '_' => string
  | c => if ' ' ≤ c ∧ c ≤ '/' then escapeIntermediate else if '0' ≤ c ∧ c ≤ '~' then ground else escape

/-- what is being read after `c`, which is not shown; cancel and substitute end every sequence -/
def next (t : Terminal) (c : Char) : Terminal :=
  if c = '\x18' ∨ c = '\x1a' then ground
  else if c = '\x1b' then escape
  else
    match t with
    | ground => ground
    | escape => ofEscape c
    | escapeIntermediate => if '0' ≤ c ∧ c ≤ '~' then ground else escapeIntermediate
    | control => if '@' ≤ c ∧ c ≤ '~' then ground else control
    | command => if c = '\x07' then ground else command
    | device =>
      if ' ' ≤ c ∧ c ≤ '/' then deviceIntermediate
      else if '0' ≤ c ∧ c ≤ '?' then deviceParameter
      else if '@' ≤ c ∧ c ≤ '~' then string
      else device
    | deviceParameter =>
      if ' ' ≤ c ∧ c ≤ '/' then deviceIntermediate
      else if '<' ≤ c ∧ c ≤ '~' then string
      else deviceParameter
    | deviceIntermediate => if '0' ≤ c ∧ c ≤ '~' then string else deviceIntermediate
    | string => if closesString c then ground else string

/-- the characters that are shown; `inRun` tells whether the one before them was -/
def shown (t : Terminal) (inRun : Bool) : List Char → List Char
  | [] => []
  | c :: rest =>
    if t.opens c || (inRun && isPlain c) then c :: shown (t.resume c) true rest else shown (t.next c) false rest

/-- the text that is shown of `s` -/
def display (s : String) : String := String.ofList (shown ground false s.toList)

theorem isPlain_of_opens {t : Terminal} {c : Char} (h : t.opens c = true) : isPlain c = true := by
  cases t <;> simp_all [opens, isPlain]

theorem isPlain_of_mem_shown {t : Terminal} {inRun : Bool} {cs : List Char} {c : Char} (h : c ∈ shown t inRun cs) :
    isPlain c = true := by
  fun_induction shown t inRun cs with
  | case1 => simp at h
  | case2 t inRun d rest hd ih =>
    rcases List.mem_cons.1 h with rfl | h
    · simp only [Bool.or_eq_true, Bool.and_eq_true] at hd
      exact hd.elim isPlain_of_opens And.right
    · exact ih h
  | case3 t inRun d rest hd ih => exact ih h

theorem shown_of_isPlain {inRun : Bool} {cs : List Char} (h : ∀ c ∈ cs, isPlain c = true) :
    shown ground inRun cs = cs := by
  induction cs generalizing inRun with
  | nil => rfl
  | cons c rest ih =>
    have hc := h c List.mem_cons_self
    simp [shown, opens, resume, hc, ih fun d hd => h d (List.mem_cons_of_mem c hd)]

end Terminal

end RackMap.Text
