/-! A oneshot channel: one value, sent at most once, received at most once. Closing the
receiver and sending are atomic against each other, so a send fails exactly when the
receiver was closed before it. -/
namespace Oneshot

universe u

structure Channel (α : Type u) where
  value : Option α
  closed : Bool
  deriving DecidableEq, Repr

variable {α : Type u}

def fresh : Channel α := ⟨none, false⟩

def send (c : Channel α) (v : α) : Channel α × Option α :=
  if c.closed then (c, some v) else (⟨some v, c.closed⟩, none)

/-- Close the receiving side; a value already sent stays for `tryRecv`. -/
def close (c : Channel α) : Channel α := ⟨c.value, true⟩

def tryRecv (c : Channel α) : Channel α × Option α := (⟨none, c.closed⟩, c.value)

/-- Drop the receiver: the channel closes and an unread value is dropped with it. -/
def drop (_ : Channel α) : Channel α := ⟨none, true⟩

@[simp] theorem fresh_value : (fresh : Channel α).value = none := rfl
@[simp] theorem fresh_closed : (fresh : Channel α).closed = false := rfl
@[simp] theorem close_value (c : Channel α) : (close c).value = c.value := rfl
@[simp] theorem close_closed (c : Channel α) : (close c).closed = true := rfl
@[simp] theorem drop_value (c : Channel α) : (drop c).value = none := rfl
@[simp] theorem drop_closed (c : Channel α) : (drop c).closed = true := rfl
@[simp] theorem tryRecv_value (c : Channel α) : (tryRecv c).1.value = none := rfl
@[simp] theorem tryRecv_closed (c : Channel α) : (tryRecv c).1.closed = c.closed := rfl
@[simp] theorem tryRecv_taken (c : Channel α) : (tryRecv c).2 = c.value := rfl
@[simp] theorem send_closed (c : Channel α) (v : α) : (send c v).1.closed = c.closed := by
  unfold send; split <;> rfl

/-- A send either leaves the value in an open channel or hands it back, never both. -/
theorem send_cases (c : Channel α) (v : α) :
    (c.closed = true ∧ send c v = (c, some v)) ∨
    (c.closed = false ∧ send c v = (⟨some v, false⟩, none)) := by
  cases h : c.closed <;> simp [send,h]

end Oneshot
