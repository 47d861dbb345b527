import Phrasebook.Tree.Parser

/-! # Line buffers

A program typed line by line is gathered until it can be run: as long as its text is cut short
inside a string or a filler, the next line is appended to it.

* `LineBuffer.extend` — the text held after one more line.
* `LineBuffer.Offer` — what becomes of that text: it is blank, it waits for more, or it is ready.
* `LineBuffer.offer` — which of the three.
-/

namespace Phrasebook.LineBuffer

def terminated (line : Text) : Text := if line.getLast? = some '\n' then line else line ++ ['\n']

def extend (held line : Text) : Text := held ++ terminated line

inductive Offer where
  | blank
  | waiting (held : Text)
  | ready (chunk : Text)
deriving DecidableEq, Repr

variable [CallStack]

/-- Whether a text is cut short, so that more text may complete it. -/
def isCutShort (text : Text) : Bool :=
  match parse text with
  | .ok ⟨_, .needsMore _⟩ => true
  | _ => false

def offer (held line : Text) : Offer :=
  let text := extend held line
  if text.isAllBlank then .blank else if isCutShort text then .waiting text else .ready text

def Offer.held : Offer → Text
  | blank => []
  | waiting held => held
  | ready _ => []

def Offer.chunk? : Offer → Option Text
  | ready chunk => some chunk
  | _ => none

end Phrasebook.LineBuffer
