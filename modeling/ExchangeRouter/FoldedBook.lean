import ExchangeRouter.Books

/-!
# Streams that fold a sequenced book feed

The book streams of Bybit and OKX have one loop body. A message that starts the book over
clears the dictionaries; another one must follow the id last seen, or the stream ends.
Nothing is applied before the first message that starts over, and a message that raises
ends the stream.
-/

namespace ExchangeRouter

/-- How a stream reads the messages of its venue. -/
structure BookReader (μ : Type*) where
  update : μ → BookUpdate
  /-- The id of a message. -/
  seq : μ → Option ℤ
  /-- The message does not follow the id last seen. -/
  gap : Option ℤ → μ → Bool
  /-- What a quantity is multiplied by as it is stored. -/
  scale : ℚ → ℚ

/-- The local variables of such a stream. -/
structure FoldState where
  book : Sides := {}
  last : Option ℤ := none
  bootstrapped : Bool := false

section

variable {μ β : Type*} (v : BookReader μ) (emit : Sides → μ → Option (List β))

/-- The loop body. `emit` makes the frames of a message from the dictionaries, `none` where
that raises. -/
def onMessage (s : FoldState) (m : μ) : List β × Option FoldState :=
  -- a message that starts over is not checked
  if !(v.update m).reset && v.gap s.last m then ([], none)
  else
    let book := if (v.update m).reset then {} else s.book
    let bootstrapped := (v.update m).reset || s.bootstrapped
    -- before the first such message only the id is remembered
    if bootstrapped then
      match book.applyBoth v.scale (v.update m).bids (v.update m).asks with
      | none => ([], none)
      | some book =>
        match emit book m with
        | none => ([], none)
        | some frames => (frames, some ⟨book, v.seq m, bootstrapped⟩)
    else ([], some ⟨book, v.seq m, bootstrapped⟩)

end

end ExchangeRouter
