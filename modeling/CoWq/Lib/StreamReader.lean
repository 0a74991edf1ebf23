import CoWq.Lib.Inbound

/-!
# Readers of a connection

Code that receives what it needs from a stream, may answer on the way, and gives up when
something is missing.

* `Reader`: such code, as a function of the connection that it leaves behind.
* `Reader.fill`, `Reader.text`, `Reader.send`: its calls.
* `Consumes`: the reader takes exactly these elements off the stream and gives this value,
  wherever the stream is cut and whatever follows; one rule for each call, and for `>>=`.
-/

namespace CoWq

/-- A receive of a single element. -/
theorem Inbound.recv_one {α : Type} {s : Inbound α} {a : α} {rest : List α}
    (here : s.pending = a :: rest) : ∃ s', s.recv 1 = (1, [a], s') ∧ s'.pending = rest := by
  obtain ⟨data, left, s', run, progress, whole, behind, -⟩ :=
    Inbound.recv_spec 1 (show s.pending = [a] ++ rest from here) rfl Nat.one_pos
  obtain ⟨rfl, rfl⟩ : data = [a] ∧ left = [] := by
    rcases data with _ | ⟨b, data⟩
    · exact absurd progress (Nat.lt_irrefl 0)
    · obtain ⟨rfl, none'⟩ := List.cons.inj whole
      obtain ⟨rfl, rfl⟩ := List.append_eq_nil_iff.mp none'.symm
      exact ⟨rfl, rfl⟩
  exact ⟨s', run, behind⟩

/-- A stream that comes element by element. -/
def Inbound.piecemeal {α : Type} (all : List α) : Inbound α where
  chunks := all.map fun a => [a]
  ending := 0
  positive := by
    intro c mem
    obtain ⟨a, -, rfl⟩ := List.mem_map.mp mem
    exact List.cons_ne_nil a []
  stops := Inbound.orderly_stops

theorem Inbound.pending_piecemeal {α : Type} (all : List α) :
    (Inbound.piecemeal all).pending = all := by
  rw [pending, piecemeal, ← List.flatMap_def, List.flatMap_singleton']

/-- What a side of a connection still receives, and what it has sent. -/
structure Connection (α : Type) where
  inbound : Inbound α
  sent : List α := []

/-- Code over a connection that may give up. -/
abbrev Reader (α : Type) := OptionT (StateM (Connection α))

namespace Reader

variable {α β γ : Type}

/-- Receive until a buffer of this size is full. -/
def fill (size : Nat) : Reader α (List α) := fun c =>
  match c.inbound.fill size [] with
  | (.ok bytes, s) => (some bytes, { c with inbound := s })
  | (.error _, s) => (none, { c with inbound := s })

/-- Receive a buffer of one element. -/
def one [Inhabited α] : Reader α α := do
  let bytes ← fill 1
  return bytes.headD default

/-- Receive single elements behind `result` until `stop` comes, at most `room` of them. -/
def textFrom [DecidableEq α] (stop : α) : Nat → List α → Reader α (List α)
  | 0, _ => failure
  | room + 1, result => fun c =>
      match c.inbound.recv 1 with
      | (n, data, s) =>
          if n ≤ 0 then (none, { c with inbound := s })
          else if data = [stop] then (some result, { c with inbound := s })
          else textFrom stop room (result ++ data) { c with inbound := s }

/-- The elements up to `stop`, fewer than `size`. -/
def text [DecidableEq α] (stop : α) (size : Nat) : Reader α (List α) := textFrom stop size []

/-- Send something; `answer` is the answer of the call. -/
def send (answer : List α → Int) (data : List α) : Reader α Int := fun c =>
  (some (answer data), { c with sent := c.sent ++ data })

/-- Code goes on with what a call has given, and not behind one that has given up. -/
theorem bind_some {first : Reader α β} {next : β → Reader α γ} {c c' : Connection α} {value : β}
    (run : first c = (some value, c')) : (first >>= next) c = next value c' := by
  simp only [Bind.bind, OptionT.bind, OptionT.mk, StateT.bind, run]

theorem bind_none {first : Reader α β} {next : β → Reader α γ} {c c' : Connection α}
    (run : first c = (none, c')) : (first >>= next) c = (none, c') := by
  simp only [Bind.bind, OptionT.bind, OptionT.mk, StateT.bind, run]
  rfl

theorem send_eq (answer : List α → Int) (data : List α) (c : Connection α) :
    send answer data c = (some (answer data), { c with sent := c.sent ++ data }) := rfl

/-- The second call is for a first one that has given up. -/
theorem orElse_some {first other : Reader α β} {c c' : Connection α} {value : β}
    (run : first c = (some value, c')) : (first <|> other) c = (some value, c') := by
  show OptionT.orElse first (fun _ => other) c = _
  simp only [OptionT.orElse, OptionT.mk, Bind.bind, StateT.bind, run]
  rfl

end Reader

/-- The reader takes `taken` off the stream, sends `sent` and gives `value`, wherever the stream is
cut and whatever follows. -/
def Consumes {α β : Type} (reader : Reader α β) (taken sent : List α) (value : β) : Prop :=
  ∀ (c : Connection α) (rest : List α), c.inbound.pending = taken ++ rest →
    ∃ s : Inbound α, reader c = (some value, ⟨s, c.sent ++ sent⟩) ∧ s.pending = rest

namespace Consumes

variable {α β γ : Type} {value : β} {taken taken' sent sent' : List α}

theorem pure : Consumes (Pure.pure value : Reader α β) [] [] value := by
  intro c rest here
  exact ⟨c.inbound, by rw [List.append_nil]; rfl, here⟩

theorem bind {first : Reader α β} {next : β → Reader α γ} {last : γ}
    (one : Consumes first taken sent value) (two : Consumes (next value) taken' sent' last) :
    Consumes (first >>= next) (taken ++ taken') (sent ++ sent') last := by
  intro c rest here
  rw [List.append_assoc] at here
  obtain ⟨s, run, there⟩ := one c (taken' ++ rest) here
  obtain ⟨s', run', left⟩ := two ⟨s, c.sent ++ sent⟩ rest there
  refine ⟨s', ?_, left⟩
  rw [Reader.bind_some run, run', List.append_assoc]

/-- Behind a call that sends nothing. -/
theorem next {first : Reader α β} {next : β → Reader α γ} {last : γ}
    (one : Consumes first taken [] value) (two : Consumes (next value) taken' sent last) :
    Consumes (first >>= next) (taken ++ taken') sent last := bind one two

/-- In front of calls that send nothing. -/
theorem quiet {first : Reader α β} {next : β → Reader α γ} {last : γ}
    (one : Consumes first taken sent value) (two : Consumes (next value) taken' [] last) :
    Consumes (first >>= next) (taken ++ taken') sent last := by
  have both := bind one two
  rwa [List.append_nil] at both

/-- Behind the last call. -/
theorem result {first : Reader α β} (f : β → γ) (one : Consumes first taken sent value) :
    Consumes (first >>= fun value => Pure.pure (f value)) taken sent (f value) := by
  have both : Consumes (first >>= fun value => Pure.pure (f value)) (taken ++ []) (sent ++ [])
      (f value) := bind one pure
  rwa [List.append_nil, List.append_nil] at both

theorem orElse {first other : Reader α β} (one : Consumes first taken sent value) :
    Consumes (first <|> other) taken sent value := by
  intro c rest here
  obtain ⟨s, run, left⟩ := one c rest here
  exact ⟨s, Reader.orElse_some run, left⟩

theorem fill {size : Nat} (amount : taken.length = size) :
    Consumes (Reader.fill size) taken [] taken := by
  intro c rest here
  obtain ⟨s, run, left, -⟩ := Inbound.fill_spec [] here (by simpa using amount)
  refine ⟨s, ?_, left⟩
  rw [Reader.fill, run, List.append_nil, List.nil_append]

theorem one [Inhabited α] (a : α) : Consumes Reader.one [a] [] a := by
  have filled : Consumes (Reader.fill 1) [a] [] [a] := fill rfl
  exact result (fun bytes => bytes.headD default) filled

theorem textFrom [DecidableEq α] {stop : α} {room : Nat} {result bytes : List α}
    (fits : bytes.length < room) (plain : stop ∉ bytes) :
    Consumes (Reader.textFrom stop room result) (bytes ++ [stop]) [] (result ++ bytes) := by
  intro c rest here
  induction bytes generalizing room result c with
  | nil =>
      obtain ⟨room, rfl⟩ := Nat.exists_eq_succ_of_ne_zero (by omega : room ≠ 0)
      obtain ⟨s, run, behind⟩ := Inbound.recv_one (a := stop) here
      refine ⟨s, ?_, behind⟩
      simp [Reader.textFrom, run]
  | cons a bytes ih =>
      obtain ⟨room, rfl⟩ := Nat.exists_eq_succ_of_ne_zero (by omega : room ≠ 0)
      obtain ⟨s, run, behind⟩ := Inbound.recv_one (a := a) here
      rw [List.mem_cons, not_or] at plain
      rw [List.length_cons] at fits
      obtain ⟨s', run', left⟩ := @ih room (result ++ [a]) (by omega) plain.2
        ⟨s, c.sent⟩ behind
      refine ⟨s', ?_, left⟩
      have other : ¬ a = stop := fun same => plain.1 same.symm
      rw [List.append_assoc, List.singleton_append] at run'
      simpa [Reader.textFrom, run, other] using run'

theorem text [DecidableEq α] {stop : α} {size : Nat} {bytes : List α}
    (fits : bytes.length < size) (plain : stop ∉ bytes) :
    Consumes (Reader.text stop size) (bytes ++ [stop]) [] bytes :=
  textFrom fits plain

/-- Behind something that is sent. -/
theorem send {answer : List α → Int} {data : List α} {next : Int → Reader α β}
    (two : Consumes (next (answer data)) taken sent value) :
    Consumes (Reader.send answer data >>= next) taken (data ++ sent) value := by
  have one : Consumes (Reader.send answer data) [] data (answer data) :=
    fun c rest here => ⟨c.inbound, Reader.send_eq answer data c, here⟩
  exact bind one two

end Consumes

end CoWq
