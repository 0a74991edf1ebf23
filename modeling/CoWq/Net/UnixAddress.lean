import CoWq.Lib.CString
import Mathlib.Data.List.GetD

/-!
# Addresses of Unix domain sockets

Three computations on one `sockaddr_un`: the address that `connect` builds, the one that
`bind_listen` binds, and the length that `address_length` reads off an address.

* `Endpoint.build`, `connectAddress`, `listenAddress`, `bindListen`, `addressLength`: the code.
* `name`, `Admitted`: which path names which address.
* `agrees_iff`: where the three agree.
-/

namespace CoWq.UnixSocket

open CString

abbrev Bytes := List UInt8

/-! ## The code -/

/-- What a platform says about `sockaddr_un`: `offsetof(sockaddr_un, sun_path)` and
`sizeof(sun_path)`. -/
structure Layout where
  offset : Nat
  size : Nat
  two_le : 2 ≤ size

def linux : Layout := ⟨2, 108, by decide⟩

structure SockaddrUn where
  sunFamily : Nat
  sunPath : Bytes
  deriving DecidableEq, Repr

/-- `AF_UNIX` -/
def afUnix : Nat := 1

/-- `sockaddr_un addr {}` -/
def SockaddrUn.zeroed (L : Layout) : SockaddrUn := ⟨0, List.replicate L.size 0⟩

/-- `!path.empty() && path[0] == '@'` -/
def IsAbstract (path : Bytes) : Prop := path.head? = some 64

instance (path : Bytes) : Decidable (IsAbstract path) := inferInstanceAs (Decidable (_ = _))

/-- `errno` when no address is built -/
inductive Errno
  | ENAMETOOLONG
  deriving DecidableEq, Repr

/-- `uds_endpoint::build`: the address and its length.  There is no result when it would touch a
byte outside of `sun_path`. -/
def Endpoint.build (L : Layout) (path : Bytes) (storage : SockaddrUn) :
    Option (Except Errno (SockaddrUn × Nat)) := do
  if IsAbstract path then
    let plen := path.length
    if plen ≤ 1 ∨ plen - 1 ≥ L.size then
      some (.error .ENAMETOOLONG)
    else
      let sunPath ← memcpy storage.sunPath 0 [0]
      let sunPath ← memcpy sunPath 1 (path.drop 1)
      some (.ok (⟨afUnix, sunPath⟩, L.offset + plen))
  else if path.length ≥ L.size then
    some (.error .ENAMETOOLONG)
  else
    let sunPath ← strncpy storage.sunPath (path ++ [0]) (L.size - 1)
    let sunPath ← memcpy sunPath (L.size - 1) [0]
    let slen := L.offset + (← strlen sunPath) + 1
    some (.ok (⟨afUnix, sunPath⟩, slen))

/-- The address that the connect awaiter hands to `::connect`. -/
def connectAddress (L : Layout) (path : Bytes) : Option (Except Errno (SockaddrUn × Nat)) :=
  Endpoint.build L path (SockaddrUn.zeroed L)

/-- The address that `bind_listen` makes up, or the text of its exception. -/
def listenAddress (L : Layout) (path : Bytes) : Option (Except String (SockaddrUn × Nat)) := do
  let addr := SockaddrUn.zeroed L
  if IsAbstract path then
    let len := path.length
    if len ≤ 1 ∨ len - 1 ≥ L.size then
      some (.error "unix path too long")
    else
      let sunPath ← memcpy addr.sunPath 0 [0]
      let sunPath ← memcpy sunPath 1 (path.drop 1)
      some (.ok (⟨afUnix, sunPath⟩, L.offset + len))
  else if path.length ≥ L.size then
    some (.error "unix path too long")
  else
    let sunPath ← strncpy addr.sunPath (path ++ [0]) (L.size - 1)
    let sunPath ← memcpy sunPath (L.size - 1) [0]
    let slen := L.offset + (← strlen sunPath) + 1
    some (.ok (⟨afUnix, sunPath⟩, slen))

/-- The fields of a `unix_listener`. -/
structure Listener where
  path : Bytes := []
  abstract : Bool := false
  bound : Bool := false
  deriving DecidableEq, Repr

/-- The system calls of `bind_listen`. -/
inductive Call
  | unlink (file : Bytes)
  | bind (addr : SockaddrUn) (slen : Nat)
  | chmod (file : Bytes) (mode : Nat)
  | listen (backlog : Int)
  deriving DecidableEq, Repr

/-- The address that the call binds. -/
def Call.bound : Call → Option (SockaddrUn × Nat)
  | .bind addr slen => some (addr, slen)
  | _ => none

/-- What the kernel answers to those that are asked for an answer. -/
structure Kernel where
  bind : SockaddrUn → Nat → Int
  listen : Int → Int

/-- The string in `sun_path` that `::unlink` and `::chmod` read, unless the name is abstract. -/
def files (path : Bytes) (addr : SockaddrUn) : Option (List Bytes) :=
  if IsAbstract path then some [] else (readString addr.sunPath).map ([·])

/-- `unix_listener::bind_listen`: the calls it makes, and the listener behind it or the text of its
exception. -/
def bindListen (L : Layout) (k : Kernel) (l : Listener) (path : Bytes) (backlog : Int)
    (unlinkExisting : Bool) (mode : Nat) : Option (List Call × Except String Listener) := do
  if l.bound then
    some ([], .error "listener already bound")
  else
    match ← listenAddress L path with
    | .error text => some ([], .error text)
    | .ok (addr, slen) =>
        let files ← files path addr
        let calls := (if unlinkExisting then files.map .unlink else []) ++ [.bind addr slen]
        if k.bind addr slen < 0 then
          some (calls, .error "bind failed")
        else
          let calls := calls ++ files.map (.chmod · mode) ++ [.listen backlog]
          if k.listen backlog < 0 then
            some (calls, .error "listen failed")
          else
            some (calls, .ok ⟨path, decide (IsAbstract path), true⟩)

/-- `unix_socket::address_length` -/
def addressLength (L : Layout) (addr : SockaddrUn) : Option Nat := do
  if addr.sunPath.head? = some 0 then
    some (L.offset + (← strlen (addr.sunPath.drop 1)) + 1)
  else
    some (L.offset + (← strlen addr.sunPath) + 1)

/-! ## Which path names which address -/

/-- The bytes at which the kernel looks: a name behind a NUL in the abstract namespace, otherwise
a string with its NUL. -/
def name (path : Bytes) : Bytes :=
  if IsAbstract path then 0 :: path.drop 1 else cString path ++ [0]

/-- The paths that name an address. -/
def Admitted (L : Layout) (path : Bytes) : Prop :=
  if IsAbstract path then 1 < path.length ∧ path.length ≤ L.size else path.length < L.size

instance (L : Layout) (path : Bytes) : Decidable (Admitted L path) :=
  inferInstanceAs (Decidable (ite _ _ _))

/-- The address of a path. -/
def address (L : Layout) (path : Bytes) : SockaddrUn × Nat :=
  (⟨afUnix, name path ++ List.replicate (L.size - (name path).length) 0⟩,
    L.offset + (name path).length)

variable {L : Layout} {path : Bytes}

theorem name_length_le (admitted : Admitted L path) : (name path).length ≤ L.size := by
  have shorter := cString_length_le path
  unfold Admitted at admitted
  unfold name
  split at admitted
  · next abstract =>
      rw [if_pos abstract, List.length_cons, List.length_drop]
      omega
  · next file =>
      rw [if_neg file, List.length_append, List.length_singleton]
      omega

theorem address_sunPath_length (admitted : Admitted L path) :
    (address L path).1.sunPath.length = L.size := by
  have fits := name_length_le admitted
  simp only [address, List.length_append, List.length_replicate]
  omega

/-- The copy of an abstract name into an array of NULs. -/
theorem copy_abstract (abstract : IsAbstract path) (admitted : Admitted L path) :
    ((memcpy (List.replicate L.size 0) 0 [0]).bind fun sunPath => memcpy sunPath 1 (path.drop 1)) =
      some (address L path).1.sunPath := by
  unfold Admitted at admitted
  rw [if_pos abstract] at admitted
  obtain ⟨n, size⟩ : ∃ n, L.size = 1 + (path.length - 1) + n :=
    ⟨L.size - path.length, by omega⟩
  have first := @memcpy_parts [] [0] (List.replicate (path.length - 1 + n) 0) [0] rfl
  have second := @memcpy_parts [0] (List.replicate (path.length - 1) 0) (List.replicate n 0)
    (path.drop 1) (by simp)
  simp only [List.nil_append, List.length_nil, List.length_singleton, List.cons_append]
    at first second
  rw [size, Nat.add_assoc, Nat.add_comm, List.replicate_succ, first, Option.bind_some,
    ← List.replicate_append_replicate, second, address, name, if_pos abstract]
  simp only [List.length_cons, List.length_drop, List.cons_append, Option.some.injEq,
    List.cons.injEq, List.append_cancel_left_eq, true_and]
  congr 1
  omega

/-- The copy of a file name into an array of NULs. -/
theorem copy_file (file : ¬ IsAbstract path) (admitted : Admitted L path) :
    ((strncpy (List.replicate L.size 0) (path ++ [0]) (L.size - 1)).bind fun sunPath =>
      memcpy sunPath (L.size - 1) [0]) = some (address L path).1.sunPath := by
  have two := L.two_le
  have shorter := cString_length_le path
  unfold Admitted at admitted
  rw [if_neg file] at admitted
  obtain ⟨n, size⟩ : ∃ n, L.size - 1 = (cString path).length + n :=
    ⟨L.size - 1 - (cString path).length, by omega⟩
  have copied := @strncpy_fits (List.replicate L.size 0) path (L.size - 1) (by simp) (by omega)
  have last := @memcpy_parts (cString path ++ List.replicate n 0) [0] [] [0] rfl
  simp only [List.length_append, List.length_replicate, List.append_nil] at last
  rw [copied, Option.bind_some, List.drop_replicate, show L.size - (L.size - 1) = 1 by omega,
    size, Nat.add_sub_cancel_left, List.replicate_one, last, address, name, if_neg file]
  simp only [List.length_append, List.length_singleton, List.append_assoc, Option.some.injEq,
    List.append_cancel_left_eq, List.singleton_append]
  rw [show L.size - ((cString path).length + 1) = n by omega, ← List.replicate_succ',
    List.replicate_succ]

theorem strlen_file (file : ¬ IsAbstract path) :
    strlen (address L path).1.sunPath = some (cString path).length := by
  rw [address, name, if_neg file, List.append_assoc, List.singleton_append, strlen,
    readString_append_nul (zero_notMem_cString path), Option.map_some]

/-- What both computations come to. -/
theorem connectAddress_eq (L : Layout) (path : Bytes) :
    connectAddress L path = some
      (if Admitted L path then .ok (address L path) else .error .ENAMETOOLONG) := by
  unfold connectAddress Endpoint.build SockaddrUn.zeroed
  by_cases abstract : IsAbstract path
  · rw [if_pos abstract]
    by_cases admitted : Admitted L path
    · have copied := copy_abstract abstract admitted
      have bounds := admitted
      rw [Admitted, if_pos abstract] at bounds
      rw [if_pos admitted, if_neg (by omega)]
      simp only [Option.bind_eq_bind, ← Option.bind_assoc, copied, Option.bind_some]
      rw [address, name, if_pos abstract]
      simp only [List.length_cons, List.length_drop]
      rw [show path.length - 1 + 1 = path.length by omega]
    · have bounds := admitted
      rw [Admitted, if_pos abstract] at bounds
      rw [if_neg admitted, if_pos (by omega)]
  · rw [if_neg abstract]
    by_cases admitted : Admitted L path
    · have copied := copy_file abstract admitted
      have bounds := admitted
      rw [Admitted, if_neg abstract] at bounds
      rw [if_pos admitted, if_neg (by omega)]
      simp only [Option.bind_eq_bind, ← Option.bind_assoc, copied, Option.bind_some,
        strlen_file abstract]
      rw [address, name, if_neg abstract]
      simp only [List.length_append, List.length_singleton, Nat.add_assoc]
    · have bounds := admitted
      rw [Admitted, if_neg abstract] at bounds
      rw [if_neg admitted, if_pos (by omega)]

/-- The listener refuses and names as the connector does. -/
theorem listenAddress_eq (L : Layout) (path : Bytes) :
    listenAddress L path = some
      (if Admitted L path then .ok (address L path) else .error "unix path too long") := by
  have same : listenAddress L path =
      (connectAddress L path).map (Except.mapError fun _ => "unix path too long") := by
    unfold listenAddress connectAddress Endpoint.build
    dsimp only
    split
    · split
      · rfl
      · simp only [Option.bind_eq_bind, Option.map_bind, Function.comp_def]
        rfl
    · split
      · rfl
      · simp only [Option.bind_eq_bind, Option.map_bind, Function.comp_def]
        rfl
  rw [same, connectAddress_eq]
  split <;> rfl

theorem files_address (path : Bytes) : ∃ names, files path (address L path).1 = some names := by
  unfold files
  by_cases abstract : IsAbstract path
  · exact ⟨_, if_pos abstract⟩
  · rw [if_neg abstract, address, name, if_neg abstract, List.append_assoc, List.singleton_append,
      readString_append_nul (zero_notMem_cString path)]
    exact ⟨_, rfl⟩

/-- On an admitted path `bind_listen` binds its address and no other one. -/
theorem bindListen_admitted {k : Kernel} {l : Listener} (admitted : Admitted L path)
    (unbound : l.bound = false) (backlog : Int) (unlinkExisting : Bool) (mode : Nat) :
    ∃ calls result, bindListen L k l path backlog unlinkExisting mode = some (calls, result) ∧
      calls.filterMap Call.bound = [address L path] := by
  obtain ⟨names, found⟩ := files_address (L := L) path
  have unlinked : (names.map Call.unlink).filterMap Call.bound = [] :=
    List.filterMap_eq_nil_iff.mpr fun call inside => by
      obtain ⟨file, -, rfl⟩ := List.mem_map.mp inside
      rfl
  have changed : (names.map (Call.chmod · mode)).filterMap Call.bound = [] :=
    List.filterMap_eq_nil_iff.mpr fun call inside => by
      obtain ⟨file, -, rfl⟩ := List.mem_map.mp inside
      rfl
  have before : ((if unlinkExisting then names.map Call.unlink else []) ++
      [Call.bind (address L path).1 (address L path).2]).filterMap Call.bound =
        [address L path] := by
    cases unlinkExisting <;> simp [unlinked, Call.bound]
  unfold bindListen
  rw [unbound, listenAddress_eq, if_pos admitted]
  simp only [Bool.false_eq_true, if_false, Option.bind_eq_bind, Option.bind_some, found]
  split
  · exact ⟨_, _, rfl, before⟩
  · split
    · refine ⟨_, _, rfl, ?_⟩
      rw [List.filterMap_append, List.filterMap_append, before, changed]
      rfl
    · refine ⟨_, _, rfl, ?_⟩
      rw [List.filterMap_append, List.filterMap_append, before, changed]
      rfl

/-- On any other path it throws before any call. -/
theorem bindListen_refused {k : Kernel} {l : Listener} (refused : ¬ Admitted L path)
    (unbound : l.bound = false) (backlog : Int) (unlinkExisting : Bool) (mode : Nat) :
    bindListen L k l path backlog unlinkExisting mode =
      some ([], .error "unix path too long") := by
  unfold bindListen
  rw [unbound, listenAddress_eq, if_neg refused]
  rfl

/-! ## Names and lengths -/

/-- Paths without NULs that name the same bytes are the same. -/
theorem name_injective {path' : Bytes} (admitted : Admitted L path) (admitted' : Admitted L path')
    (plain : 0 ∉ path) (plain' : 0 ∉ path') (same : name path = name path') : path = path' := by
  unfold name at same
  split at same
  · next abstract =>
      obtain ⟨rest, rfl⟩ := List.head?_eq_some_iff.mp abstract
      split at same
      · next abstract' =>
          obtain ⟨rest', rfl⟩ := List.head?_eq_some_iff.mp abstract'
          exact congrArg (64 :: ·) (List.cons.inj same).2
      · rw [cString_eq_self plain'] at same
        -- a name in the abstract namespace has a byte behind its NUL
        cases path' with
        | nil =>
            have behind := (List.cons.inj same).2
            simp only [List.drop_succ_cons, List.drop_zero] at behind
            rw [Admitted, if_pos abstract, behind] at admitted
            exact absurd admitted.1 (by simp)
        | cons b path' =>
            rw [List.cons_append] at same
            exact absurd ((List.cons.inj same).1 ▸ List.mem_cons_self) plain'
  · rw [cString_eq_self plain] at same
    split at same
    · next abstract' =>
        obtain ⟨rest', rfl⟩ := List.head?_eq_some_iff.mp abstract'
        cases path with
        | nil =>
            have behind := (List.cons.inj same).2
            simp only [List.drop_succ_cons, List.drop_zero] at behind
            rw [Admitted, if_pos abstract', ← behind] at admitted'
            exact absurd admitted'.1 (by simp)
        | cons b path =>
            rw [List.cons_append] at same
            exact absurd ((List.cons.inj same).1 ▸ List.mem_cons_self) plain
    · rw [cString_eq_self plain'] at same
      exact List.append_cancel_right same

theorem address_injective {path' : Bytes} (same : address L path = address L path') :
    name path = name path' := by
  have lengths := congrArg Prod.snd same
  have paths := congrArg (fun a => a.1.sunPath) same
  simp only [address, Nat.add_left_cancel_iff] at lengths paths
  exact (List.append_inj paths lengths).1

/-- The whole of `sun_path` is a name in the abstract namespace, without a NUL at its end. -/
def FullName (L : Layout) (path : Bytes) : Prop :=
  IsAbstract path ∧ path.length = L.size

instance (L : Layout) (path : Bytes) : Decidable (FullName L path) :=
  inferInstanceAs (Decidable (_ ∧ _))

/-- The length that is read off the address of a path. -/
theorem addressLength_address (admitted : Admitted L path) (plain : 0 ∉ path) :
    addressLength L (address L path).1 =
      if FullName L path then none else some (address L path).2 := by
  by_cases abstract : IsAbstract path
  · obtain ⟨rest, rfl⟩ := List.head?_eq_some_iff.mp abstract
    have plainRest : 0 ∉ rest := fun inside => plain (List.mem_cons_of_mem _ inside)
    rw [Admitted, if_pos abstract, List.length_cons] at admitted
    unfold addressLength address name FullName
    rw [if_pos abstract]
    simp only [List.cons_append, List.head?_cons, if_true, List.drop_succ_cons, List.drop_zero,
      List.length_cons, Option.bind_eq_bind]
    by_cases full : rest.length + 1 = L.size
    · rw [if_pos ⟨abstract, full⟩, full, Nat.sub_self, List.replicate_zero, List.append_nil, strlen,
        readString_eq_none plainRest]
      rfl
    · obtain ⟨n, room⟩ : ∃ n, L.size - (rest.length + 1) = n + 1 :=
        ⟨L.size - (rest.length + 1) - 1, by omega⟩
      rw [if_neg (fun h => full h.2), room, List.replicate_succ, strlen,
        readString_append_nul plainRest]
      rfl
  · rw [if_neg fun full : FullName L path => abstract full.1, address, name, if_neg abstract,
      cString_eq_self plain]
    rw [Admitted, if_neg abstract] at admitted
    have two := L.two_le
    unfold addressLength
    cases path with
    | nil =>
        obtain ⟨n, room⟩ : ∃ n, L.size - 1 = n + 1 := ⟨L.size - 2, by omega⟩
        simp only [List.nil_append, List.length_singleton, List.singleton_append, List.head?_cons,
          if_true, List.drop_succ_cons, List.drop_zero, Option.bind_eq_bind]
        rw [room, List.replicate_succ, strlen, ← List.nil_append (0 :: _),
          readString_append_nul (List.not_mem_nil)]
        rfl
    | cons b path =>
        have nonzero : b ≠ 0 := fun zero => plain (zero ▸ List.mem_cons_self)
        rw [if_neg (by simp [nonzero]), strlen, List.append_assoc, List.singleton_append,
          readString_append_nul plain]
        simp [Nat.add_assoc]

/-! ## Where the three agree -/

/-- The paths that `connect` and every listener that is not bound take, with the same address. -/
def Accepts (L : Layout) (path : Bytes) (addr : SockaddrUn) (slen : Nat) : Prop :=
  connectAddress L path = some (.ok (addr, slen)) ∧
  ∀ (k : Kernel) (l : Listener) (backlog : Int) (unlinkExisting : Bool) (mode : Nat),
    l.bound = false → ∃ calls result,
      bindListen L k l path backlog unlinkExisting mode = some (calls, result) ∧
      calls.filterMap Call.bound = [(addr, slen)]

/-- The paths that both refuse. -/
def Refuses (L : Layout) (path : Bytes) : Prop :=
  connectAddress L path = some (.error .ENAMETOOLONG) ∧
  ∀ (k : Kernel) (l : Listener) (backlog : Int) (unlinkExisting : Bool) (mode : Nat),
    l.bound = false → bindListen L k l path backlog unlinkExisting mode =
      some ([], .error "unix path too long")

/-- The three computations agree on a path. -/
structure Agrees (L : Layout) (path : Bytes) : Prop where
  /-- the connector and the listener, without touching a byte outside of `sun_path` -/
  same : Refuses L path ∨ ∃ addr slen, Accepts L path addr slen ∧ addr.sunPath.length = L.size
  /-- the address is that of no other path -/
  apart : ∀ path' addr slen, 0 ∉ path → 0 ∉ path' → Accepts L path addr slen →
    Accepts L path' addr slen → path = path'
  /-- `address_length` reads the length inside of `sun_path` -/
  measured : ∀ addr slen, 0 ∉ path → Accepts L path addr slen → addressLength L addr = some slen

theorem accepts_iff {addr : SockaddrUn} {slen : Nat} :
    Accepts L path addr slen ↔ Admitted L path ∧ (addr, slen) = address L path := by
  constructor
  · rintro ⟨connects, -⟩
    rw [connectAddress_eq] at connects
    split at connects
    · next admitted =>
        simp only [Option.some.injEq, Except.ok.injEq] at connects
        exact ⟨admitted, connects.symm⟩
    · cases connects
  · rintro ⟨admitted, same⟩
    refine ⟨?_, fun k l backlog unlinkExisting mode unbound => ?_⟩
    · rw [connectAddress_eq, if_pos admitted, same]
    · rw [same]
      exact bindListen_admitted admitted unbound backlog unlinkExisting mode

/-- **Addresses.**  The three agree on all paths but the names without NULs that fill `sun_path`
in the abstract namespace. -/
theorem agrees_iff (L : Layout) (path : Bytes) :
    Agrees L path ↔ ¬ (FullName L path ∧ 0 ∉ path) := by
  constructor
  · rintro agrees ⟨full, plain⟩
    have two := L.two_le
    have admitted : Admitted L path := by
      rw [Admitted, if_pos full.1, full.2]
      omega
    have measured := agrees.measured (address L path).1 (address L path).2 plain
      (accepts_iff.mpr ⟨admitted, rfl⟩)
    rw [addressLength_address admitted plain, if_pos full] at measured
    cases measured
  · intro shorter
    refine ⟨?_, ?_, ?_⟩
    · by_cases admitted : Admitted L path
      · exact .inr ⟨_, _, accepts_iff.mpr ⟨admitted, rfl⟩, address_sunPath_length admitted⟩
      · refine .inl ⟨?_, fun k l backlog unlinkExisting mode unbound => ?_⟩
        · rw [connectAddress_eq, if_neg admitted]
        · exact bindListen_refused admitted unbound backlog unlinkExisting mode
    · intro path' addr slen plain plain' accepts accepts'
      obtain ⟨admitted, same⟩ := accepts_iff.mp accepts
      obtain ⟨admitted', same'⟩ := accepts_iff.mp accepts'
      exact name_injective admitted admitted' plain plain'
        (address_injective (same.symm.trans same'))
    · intro addr slen plain accepts
      obtain ⟨admitted, same⟩ := accepts_iff.mp accepts
      have measured := addressLength_address admitted plain
      rw [← same, if_neg fun full => shorter ⟨full, plain⟩] at measured
      exact measured

/-- `@` and 107 bytes: `address_length` reads on behind `sun_path`. -/
theorem longest_name_unmeasured :
    ¬ ∀ path addr slen, 0 ∉ path → Accepts linux path addr slen →
      addressLength linux addr = some slen := by
  intro always
  have measured := always (64 :: List.replicate 107 97) _ _ (by decide)
    (accepts_iff.mpr ⟨by decide, rfl⟩)
  revert measured
  decide

end CoWq.UnixSocket
