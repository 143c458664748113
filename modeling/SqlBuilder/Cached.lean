/-! # Text that is remembered

Rendering is work, so whatever can change keeps the text it was last read as. A read answers with
that text if there is one; every change forgets it. Nothing here says that the remembered text is
right: that follows from how each kind of content is changed and read.
-/

namespace SqlBuilder

/-- Content that can change, with the text it was last read as. -/
structure Cached (α : Type) where
  content : α
  memo? : Option String := none
  deriving DecidableEq

namespace Cached

variable {α β ε : Type}

instance [Inhabited α] : Inhabited (Cached α) := ⟨{ content := default }⟩

/-- The answer to a read: the remembered text, or else what the content renders as. -/
def text (render : α → String) (c : Cached α) : String := c.memo?.getD (render c.content)

/-- What a read leaves behind: its answer is remembered. -/
def afterRead (render : α → String) (c : Cached α) : Cached α :=
  { c with memo? := some (c.text render) }

/-- The answer to a read of content that may fail to render. -/
def text? (render : α → Except ε String) (c : Cached α) : Except ε String :=
  match c.memo? with
  | some text => .ok text
  | none => render c.content

/-- What a read of content that may fail to render leaves behind: only a text is remembered. -/
def afterRead? (render : α → Except ε String) (c : Cached α) : Cached α :=
  match c.text? render with
  | .ok text => { c with memo? := some text }
  | .error _ => c

/-- Changes the content and forgets the text. -/
def edit (change : α → β × α) (c : Cached α) : β × Cached α :=
  let (reply, content) := change c.content
  (reply, { content })

/-- Changes the content and forgets the text, or leaves both as they are. -/
def edit? (change : α → Except ε (β × α)) (c : Cached α) : Except ε β × Cached α :=
  match change c.content with
  | .ok (reply, content) => (.ok reply, { content })
  | .error e => (.error e, c)

end Cached

/-- What a change answers. -/
inductive Reply
  | done
  | flag (b : Bool)
  | count (n : Nat)
  deriving DecidableEq, Repr

end SqlBuilder
