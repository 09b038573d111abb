import Tr69HostIf.Clib.Hex
import Tr69HostIf.Store.Lines
import Tr69HostIf.Store.Scan

/-!
# The table of active ports

`getActivePortsFields` of `Device_IP_ActivePort.cpp` and `getNumOfActivePorts` of `Device_IP.cpp`, on the text of
`/proc/net/tcp`. The second counts the sockets that listen or are established, the first numbers all sockets.

* `words` : what `>>` reads from a line;
* `getNumOfActivePorts`, `getActivePortsFields` : the functions;
* `TcpFile` : a header and the sockets the kernel prints, `TcpFile.text`; `Socket.fields` : what is to be reported;
* `getNumOfActivePorts_eq`, `getActivePortsFields_eq` : what the functions find in such a file;
* `tableMatches_iff` : they agree exactly when all sockets are active.
-/

namespace Tr69HostIf.IP
open Store Clib

/-! ## The functions -/

/-- The words of a line, as `>>` reads them. -/
def words (line : Text) : List Text := (line.splitOnP isspace).filter fun w => w ≠ []

/-- `inet_ntop(AF_INET, &ipAddr, …)` on a little-endian machine. -/
def inetNtop (ipAddr : Nat) : Text :=
  printNat (ipAddr % 256) ++ '.' :: printNat (ipAddr / 256 % 256) ++ '.' :: printNat (ipAddr / 65536 % 256) ++
    '.' :: printNat (ipAddr / 16777216 % 256)

/-- The members of `activePort`. -/
structure ActivePort where
  localIpAddress : Text
  localPort : Nat
  remoteIpAddress : Text
  remotePort : Nat
  status : Text
  deriving DecidableEq

/-- `LISTEN`. -/
def listenText : Text := ['L', 'I', 'S', 'T', 'E', 'N']

/-- `ESTABLISHED`. -/
def establishedText : Text := ['E', 'S', 'T', 'A', 'B', 'L', 'I', 'S', 'H', 'E', 'D']

/-- `field == "0A" || field == "01"`, where `field` is the last of four words read. -/
def isActiveLine (line : Text) : Bool :=
  let field := ((words line).take 4).getLast?.getD []
  field = ['0', 'A'] || field = ['0', '1']

/-- `getNumOfActivePorts`. -/
def getNumOfActivePorts (tcpFile : Text) : Nat := ((getlines tcpFile).filter isActiveLine).length

/-- The loop of `getActivePortsFields` up to the line of the instance. -/
def findLine (activePortNo : Nat) : Nat → List Text → Option Text
  | _, [] => none
  | activePortCount, line :: lines =>
      if activePortNo = activePortCount then some line else findLine activePortNo (activePortCount + 1) lines

/-- The address and the port in front of and behind the colon, by `strsep`. -/
def addressOf (t : Text) : Text × Nat :=
  (inetNtop (strtoulHex (t.takeWhile fun c => c ≠ ':')), strtoulHex (t.dropWhile fun c => c ≠ ':').tail)

/-- The members set from the words of a line. -/
def portOfLine (line : Text) : ActivePort :=
  let localAddress := addressOf (((words line)[1]?).getD [])
  let remoteAddress := addressOf (((words line)[2]?).getD [])
  let state := strtoulHex (((words line)[3]?).getD [])
  { localIpAddress := localAddress.1, localPort := localAddress.2
    remoteIpAddress := remoteAddress.1, remotePort := remoteAddress.2
    status := if state = 10 then listenText else if state = 1 then establishedText else [] }

/-- `getActivePortsFields`: the members when it returns `OK`. The addresses fit the buffers as the kernel prints them. -/
def getActivePortsFields (tcpFile : Text) (activePortNo : Nat) : Option ActivePort :=
  (findLine activePortNo 1 (getlines tcpFile).tail).map portOfLine

/-! ## The file -/

/-- A socket, with what the kernel prints in front of its addresses and behind its state. -/
structure Socket where
  indent : Nat
  index : Text
  localAddress : Nat
  localPort : Nat
  remoteAddress : Nat
  remotePort : Nat
  state : Nat
  rest : Text
  index_ne_nil : index ≠ []
  index_plain : ∀ c ∈ index, isspace c = false
  localAddress_lt : localAddress < 2 ^ 32
  localPort_lt : localPort < 2 ^ 16
  remoteAddress_lt : remoteAddress < 2 ^ 32
  remotePort_lt : remotePort < 2 ^ 16
  state_lt : state < 2 ^ 8
  rest_plain : '\n' ∉ rest

/-- `%08X:%04X`. -/
def addressText (address port : Nat) : Text := printHex 8 address ++ ':' :: printHex 4 port

/-- The line of a socket. -/
def Socket.line (s : Socket) : Text :=
  List.replicate s.indent ' ' ++ (s.index ++ ' ' :: (addressText s.localAddress s.localPort ++
    ' ' :: (addressText s.remoteAddress s.remotePort ++ ' ' :: (printHex 2 s.state ++ ' ' :: s.rest))))

/-- `/proc/net/tcp`: a header, whose fourth word is no state, and the sockets. -/
structure TcpFile where
  header : Text
  header_plain : '\n' ∉ header
  header_state : isActiveLine header = false
  sockets : List Socket

/-- The text of the file. -/
def TcpFile.text (f : TcpFile) : Text := terminate '\n' (f.header :: f.sockets.map Socket.line)

/-- The socket listens or is established. -/
def Socket.active (s : Socket) : Bool := s.state = 10 || s.state = 1

/-- What is to be reported of a socket. -/
def Socket.fields (s : Socket) : ActivePort where
  localIpAddress := inetNtop s.localAddress
  localPort := s.localPort
  remoteIpAddress := inetNtop s.remoteAddress
  remotePort := s.remotePort
  status := if s.state = 10 then listenText else if s.state = 1 then establishedText else []

/-! ## Words -/

section
variable {t w : Text}

theorem words_cons (hw : ∀ c ∈ w, isspace c = false) (hne : w ≠ []) (t : Text) : words (w ++ ' ' :: t) = w :: words t := by
  have hsplit : (w ++ ' ' :: t).splitOnP isspace = w :: t.splitOnP isspace :=
    List.splitOnP_append_cons_of_forall_mem hw ' ' (by decide) t
  rw [words, hsplit, List.filter_cons_of_pos (by simpa using hne)]
  rfl

theorem words_space (t : Text) : words (' ' :: t) = words t := by
  have hnone : ∀ c ∈ ([] : Text), isspace c = false := fun c hc => by cases hc
  have hsplit : (' ' :: t).splitOnP isspace = [] :: t.splitOnP isspace :=
    List.splitOnP_append_cons_of_forall_mem hnone ' ' (by decide) t
  rw [words, hsplit, List.filter_cons_of_neg (by simp)]
  rfl

theorem words_indent (n : Nat) (t : Text) : words (List.replicate n ' ' ++ t) = words t := by
  induction n with
  | zero => rfl
  | succ n ih => rw [List.replicate_succ, List.cons_append, words_space, ih]

end

/-! ## Lines -/

section
variable {address port w n : Nat} {f : TcpFile}

theorem not_space_of_xdigit {c : Char} (h : isxdigit c = true) : isspace c = false := by
  simp only [isspace, Bool.or_eq_false_iff, decide_eq_false_iff_not]
  refine ⟨⟨⟨⟨⟨?_, ?_⟩, ?_⟩, ?_⟩, ?_⟩, ?_⟩ <;> exact xdigit_ne h (by decide)

theorem printHex_plain : ∀ c ∈ printHex w n, isspace c = false := fun c hc => not_space_of_xdigit (isxdigit_printHex c hc)

theorem printHex_ne_nil (h : 0 < w) : printHex w n ≠ [] := by
  apply List.ne_nil_of_length_pos
  rw [length_printHex]
  exact h

theorem addressText_plain : ∀ c ∈ addressText address port, isspace c = false := by
  intro c hc
  rw [addressText, List.mem_append, List.mem_cons] at hc
  rcases hc with hc | rfl | hc
  · exact printHex_plain c hc
  · decide
  · exact printHex_plain c hc

theorem addressText_ne_nil : addressText address port ≠ [] := by
  rw [addressText]
  simp

/-- An address is read as it was printed. -/
theorem addressOf_addressText (h : address < 2 ^ 32) (h' : port < 2 ^ 16) :
    addressOf (addressText address port) = (inetNtop address, port) := by
  have hcolon : ':' ∉ printHex 8 address := fun h => xdigit_ne (isxdigit_printHex ':' h) (by decide) rfl
  have htake : (addressText address port).takeWhile (fun c => c ≠ ':') = printHex 8 address := takeWhile_ne hcolon _
  have hdrop : (addressText address port).dropWhile (fun c => c ≠ ':') = ':' :: printHex 4 port := dropWhile_ne hcolon _
  rw [addressOf, htake, hdrop, List.tail_cons, strtoulHex_printHex (by decide) (by omega),
    strtoulHex_printHex (by decide) (by omega)]

theorem words_line (s : Socket) :
    words s.line = s.index :: addressText s.localAddress s.localPort :: addressText s.remoteAddress s.remotePort ::
      printHex 2 s.state :: words s.rest := by
  rw [Socket.line, words_indent, words_cons s.index_plain s.index_ne_nil, words_cons addressText_plain addressText_ne_nil,
    words_cons addressText_plain addressText_ne_nil, words_cons printHex_plain (printHex_ne_nil (by decide))]

/-- A line is that of an active socket when its fourth word says so. -/
theorem isActiveLine_line (s : Socket) : isActiveLine s.line = s.active := by
  have hstates : ∀ n < 256, (printHex 2 n = ['0', 'A'] ↔ n = 10) ∧ (printHex 2 n = ['0', '1'] ↔ n = 1) := by
    decide +kernel
  obtain ⟨hlisten, hestablished⟩ := hstates s.state s.state_lt
  have hfield : ((words s.line).take 4).getLast?.getD [] = printHex 2 s.state := by
    rw [words_line]
    rfl
  simp only [isActiveLine, hfield, hlisten, hestablished]
  rfl

/-- What is read from a line is what is to be reported of its socket. -/
theorem portOfLine_line (s : Socket) : portOfLine s.line = s.fields := by
  have hlocal := addressOf_addressText s.localAddress_lt s.localPort_lt
  have hremote := addressOf_addressText s.remoteAddress_lt s.remotePort_lt
  have hstate : strtoulHex (printHex 2 s.state) = s.state := strtoulHex_printHex (by decide) s.state_lt
  simp only [portOfLine, words_line, List.getElem?_cons_succ, List.getElem?_cons_zero, Option.getD_some, hlocal, hremote,
    hstate]
  rfl

theorem newline_not_mem_line (s : Socket) : '\n' ∉ s.line := by
  have hplain : ∀ {t : Text}, (∀ c ∈ t, isspace c = false) → '\n' ∉ t := fun ht h => by
    have := ht '\n' h
    revert this
    decide
  have hspace : '\n' ≠ ' ' := by decide
  simp only [Socket.line, List.mem_append, List.mem_cons, List.mem_replicate, not_or, not_and]
  exact ⟨fun _ => hspace, hplain s.index_plain, hspace, hplain addressText_plain, hspace, hplain addressText_plain, hspace,
    hplain printHex_plain, hspace, s.rest_plain⟩

end

/-! ## The table -/

section
variable {n : Nat}

theorem getlines_text (f : TcpFile) : getlines f.text = f.header :: f.sockets.map Socket.line := by
  have hlines : ∀ l : List Text, (∀ line ∈ l, '\n' ∉ line) → getlines (terminate '\n' l) = l := by
    intro l hl
    induction l with
    | nil => rfl
    | cons line l ih =>
        rw [List.forall_mem_cons] at hl
        rw [terminate_cons, getlines_line hl.1, ih hl.2]
  apply hlines
  rw [List.forall_mem_cons]
  refine ⟨f.header_plain, fun line hline => ?_⟩
  obtain ⟨s, -, rfl⟩ := List.mem_map.mp hline
  exact newline_not_mem_line s

/-- The count is that of the active sockets. -/
theorem getNumOfActivePorts_eq (f : TcpFile) : getNumOfActivePorts f.text = (f.sockets.filter Socket.active).length := by
  have hactive : isActiveLine ∘ Socket.line = Socket.active := by
    funext s
    exact isActiveLine_line s
  rw [getNumOfActivePorts, getlines_text, List.filter_cons_of_neg (by rw [f.header_state]; exact Bool.false_ne_true),
    List.filter_map, List.length_map, hactive]

theorem findLine_eq (lines : List Text) {count : Nat} (h : count ≤ n) : findLine n count lines = lines[n - count]? := by
  induction lines generalizing count with
  | nil => rfl
  | cons line lines ih =>
      rw [findLine]
      by_cases heq : n = count
      · rw [if_pos heq, heq, Nat.sub_self]
        rfl
      · rw [if_neg heq, ih (by omega), show n - count = n - (count + 1) + 1 by omega, List.getElem?_cons_succ]

/-- The instances are all sockets, one after the other. -/
theorem getActivePortsFields_eq (f : TcpFile) (h : 0 < n) :
    getActivePortsFields f.text n = (f.sockets[n - 1]?).map Socket.fields := by
  have hfields : portOfLine ∘ Socket.line = Socket.fields := by
    funext s
    exact portOfLine_line s
  rw [getActivePortsFields, getlines_text, List.tail_cons, findLine_eq _ h, List.getElem?_map, Option.map_map, hfields]

end

/-- The instances up to the count are the active sockets in the order of the file, and there are no others. -/
structure TableMatches (f : TcpFile) : Prop where
  rows : (List.range' 1 (getNumOfActivePorts f.text)).map (getActivePortsFields f.text) =
    (f.sockets.filter Socket.active).map fun s => some s.fields
  above : ∀ n, getNumOfActivePorts f.text < n → getActivePortsFields f.text n = none

/-- **The table matches its count exactly when every socket is active.** -/
theorem tableMatches_iff (f : TcpFile) : TableMatches f ↔ ∀ s ∈ f.sockets, s.active = true := by
  have hcount := getNumOfActivePorts_eq f
  constructor
  · intro h
    by_contra hsome
    -- the last socket of the file has a number above the count
    have hlt : (f.sockets.filter Socket.active).length < f.sockets.length := by
      apply Nat.lt_of_le_of_ne (List.length_filter_le _ _)
      intro heq
      exact hsome (List.length_filter_eq_length_iff.mp heq)
    have hlast := h.above f.sockets.length (by omega)
    rw [getActivePortsFields_eq f (by omega), List.getElem?_eq_getElem (by omega)] at hlast
    cases hlast
  · intro hall
    have hself : f.sockets.filter Socket.active = f.sockets := List.filter_eq_self.mpr hall
    rw [hself] at hcount
    constructor
    · rw [hself, hcount]
      apply List.ext_getElem
      · simp
      · intro i hi hi'
        rw [List.getElem_map, List.getElem_range', getActivePortsFields_eq f (by omega), List.getElem_map,
          show 1 + 1 * i - 1 = i by omega, List.getElem?_eq_getElem (by simpa using hi')]
        rfl
    · intro n hn
      rw [getActivePortsFields_eq f (by omega), List.getElem?_eq_none (by omega)]
      rfl

/-- A socket on the loopback interface. -/
def loopbackSocket (index : Char) (port state : Nat) (hplain : isspace index = false) (hport : port < 2 ^ 16)
    (hstate : state < 2 ^ 8) : Socket where
  indent := 3
  index := [index, ':']
  localAddress := 0x0100007F
  localPort := port
  remoteAddress := 0
  remotePort := 0
  state := state
  rest := "00000000:00000000 00:00000000".toList
  index_ne_nil := List.cons_ne_nil _ _
  index_plain := by
    rw [List.forall_mem_cons, List.forall_mem_singleton]
    exact ⟨hplain, by decide⟩
  localAddress_lt := by decide
  localPort_lt := hport
  remoteAddress_lt := by decide
  remotePort_lt := by decide
  state_lt := hstate
  rest_plain := by decide

/-- A closing socket in front of one that listens. -/
def closingFile : TcpFile where
  header := "  sl  local_address rem_address   st tx_queue rx_queue".toList
  header_plain := by decide
  header_state := by decide +kernel
  sockets := [loopbackSocket '0' 8080 6 (by decide) (by decide) (by decide),
    loopbackSocket '1' 22 10 (by decide) (by decide) (by decide)]

/-- One socket listens; the first instance is the closing one, and the second, above the count, is there. -/
theorem closing_row :
    getNumOfActivePorts closingFile.text = 1 ∧
      getActivePortsFields closingFile.text 1 = some ⟨"127.0.0.1".toList, 8080, "0.0.0.0".toList, 0, []⟩ ∧
      getActivePortsFields closingFile.text 2 = some ⟨"127.0.0.1".toList, 22, "0.0.0.0".toList, 0, listenText⟩ ∧
      ¬TableMatches closingFile := by
  have hcount : getNumOfActivePorts closingFile.text = 1 := by decide +kernel
  have hsecond : getActivePortsFields closingFile.text 2 =
      some ⟨"127.0.0.1".toList, 22, "0.0.0.0".toList, 0, listenText⟩ := by
    decide +kernel
  refine ⟨hcount, by decide +kernel, hsecond, fun h => ?_⟩
  have hnone := h.above 2 (by omega)
  rw [hsecond] at hnone
  cases hnone

end Tr69HostIf.IP
