import Tr69HostIf.DHCPv4.Address
import Tr69HostIf.Clib.Stream

/-!
# The fields of a DHCPv4 client

`get_Device_DHCPv4_Client_Fields` puts the interface and the name servers of a client into the static `dhcpClient`, from
which the getters answer.

* `getInterfaceReference`, `getDnsServer` : the code;
* `Network` : what the commands tell, `Network.right` : the servers that are to be listed;
* `reference_right_iff`, `dnsServer_right_iff` : when the answers are those of the client's own interface.
-/

namespace Tr69HostIf.DHCPv4
open Store Clib

/-- `IFNAMSIZ`. -/
def ifNamSiz : Nat := 16

/-- `MAX_BUF_LEN` and `MAX_DNS_SERVER_LEN`. -/
def maxBufLen : Nat := 256

/-- The size of `opIfName` in `isIfnameInroutetoDNSServer`. -/
def opIfNameSize : Nat := 8

/-- What the getters answer from, for all instances. -/
structure DhcpClient where
  interface : Text
  dnsservers : Text

/-- `strncmp(a, b, n) == 0`. -/
def strncmpEq (n : Nat) (a b : Text) : Bool := a.take n = b.take n

/-- `getInterfaceName`, with the output of its command; `none` is `NOK`. -/
def getInterfaceName (output : Text) : Option Text :=
  let opIfName := (fgets ifNamSiz output).1
  if opIfName = [] then none else some opIfName

/-- The loop over the IP interfaces, from `index` on. -/
def findInterface (ifname : Text) : Nat → List Text → Option Nat
  | _, [] => none
  | index, name :: names =>
      if strncmpEq ifname.length name ifname then some index else findInterface ifname (index + 1) names

/-- `Device.IP.Interface.%d`. -/
def interfaceReference (index : Nat) : Text := "Device.IP.Interface.".toList ++ printNat index

/-- The case `eDHCPv4Interface`: `ret` keeps the `OK` of `getInterfaceName` when no interface is found. -/
def fieldsInterface (output : Text) (names : List Text) (dhcpClient : DhcpClient) : Bool × DhcpClient :=
  match getInterfaceName output with
  | none => (false, dhcpClient)
  | some ifname =>
      match findInterface ifname 1 names with
      | some index => (true, { dhcpClient with interface := interfaceReference index })
      | none => (true, dhcpClient)

/-- `get_Device_DHCPv4_Client_InterfaceReference`; `none` is not `OK`. -/
def getInterfaceReference (output : Text) (names : List Text) (dhcpClient : DhcpClient) : Option Text :=
  let r := fieldsInterface output names dhcpClient
  if r.1 then some r.2.interface else none

/-- `isIfnameInroutetoDNSServer`, with the output of its command for each server. -/
def isIfnameInroutetoDNSServer (routeOutput : Text → Text) (dnsServer ifName : Text) : Bool :=
  strncmpEq opIfNameSize (fgets opIfNameSize (routeOutput dnsServer)).1 ifName

/-- `snprintf(dnsservers + len, sizeof(dnsservers) - len, "%s,", token)`, and the new `len`. -/
def putToken (st : Text × Nat) (token : Text) : Text × Nat :=
  (if st.2 < maxBufLen then st.1.take st.2 ++ (token ++ [',']).take (maxBufLen - st.2 - 1) else st.1,
    st.2 + (token.length + 1))

/-- The loop over the tokens. -/
def tokenLoop (taken : Text → Bool) : Text × Nat → List Text → Text × Nat
  | st, [] => st
  | st, token :: tokens => tokenLoop taken (if taken token then putToken st token else st) tokens

/-- The tokens that `strtok_r` finds, `n` at most. -/
def tokens (delim : Char) : Nat → Text → List Text
  | 0, _ => []
  | n + 1, t =>
      match strtokR delim t with
      | some (token, rest) => token :: tokens delim n rest
      | none => []

/-- The case `eDHCPv4Dnsservers`, with the output of the command that lists the servers. Only the first is checked, and
without it `ret` keeps the `OK` of `getInterfaceName`. -/
def fieldsDnsservers (output serverOutput : Text) (routeOutput : Text → Text) (dhcpClient : DhcpClient) :
    Bool × DhcpClient :=
  match getInterfaceName output with
  | none => (false, dhcpClient)
  | some ifname =>
      let dupbuf := (fgets maxBufLen serverOutput).1
      let servers := tokens ',' dupbuf.length dupbuf
      if servers.head?.any isValidIPAddr then
        let st := tokenLoop (fun token => isIfnameInroutetoDNSServer routeOutput token ifname) ([], 0) servers
        (true, { dhcpClient with dnsservers := st.1.dropLast })
      else (true, { dhcpClient with dnsservers := [] })

/-- `get_Device_DHCPv4_Client_DnsServer`; `none` is not `OK`. -/
def getDnsServer (output serverOutput : Text) (routeOutput : Text → Text) (dhcpClient : DhcpClient) : Option Text :=
  let r := fieldsDnsservers output serverOutput routeOutput dhcpClient
  if r.1 then some r.2.dnsservers else none

/-! ## Networks -/

/-- The name of an interface, as the system has them. -/
structure IfName where
  name : Text
  ne : name ≠ []
  fits : name.length < ifNamSiz
  plain : '\n' ∉ name

/-- A name server, as `/etc/resolv.conf` names it. -/
structure NameServer where
  text : Text
  ne : text ≠ []
  plain : ',' ∉ text ∧ '\n' ∉ text

/-- What the commands tell: the interface of the client's default route, the IP interfaces, the name servers, and the
interface that each is reached through. -/
structure Network where
  ifname : IfName
  interfaces : List IfName
  servers : List NameServer
  route : Text → Option IfName
  joined : ([','].intercalate (servers.map NameServer.text)).length < maxBufLen

namespace Network
variable (n : Network)

/-- The servers with a comma behind each. -/
def serverOutput : Text := terminate ',' (n.servers.map NameServer.text)

/-- The name of the interface to a server, empty when there is none. -/
def routeOutput (server : Text) : Text := ((n.route server).map IfName.name).getD []

/-- The servers that are to be listed. -/
def right : List Text :=
  (n.servers.map NameServer.text).filter fun server => isValidIPAddr server && decide (n.routeOutput server = n.ifname.name)

/-- The interface reference is that of an interface of the name, and there is none without one. -/
structure ReferenceRight (dhcpClient : DhcpClient) : Prop where
  only : ∀ k, getInterfaceReference n.ifname.name (n.interfaces.map IfName.name) dhcpClient = some (interfaceReference k) →
    1 ≤ k ∧ (n.interfaces.map IfName.name)[k - 1]? = some n.ifname.name
  fails : n.ifname.name ∉ n.interfaces.map IfName.name →
    getInterfaceReference n.ifname.name (n.interfaces.map IfName.name) dhcpClient = none

/-- An interface has the name, and none before it a name that begins so. -/
def NamedFirst : Prop :=
  ∃ a b, n.interfaces.map IfName.name = a ++ n.ifname.name :: b ∧ ∀ name ∈ a, ¬ n.ifname.name <+: name

end Network

section
variable {ifname name : Text} {names : List Text}

theorem strncmpEq_iff : strncmpEq ifname.length name ifname = true ↔ ifname <+: name := by
  rw [strncmpEq, decide_eq_true_eq, List.take_length, List.prefix_iff_eq_take]
  exact eq_comm

theorem findInterface_first {a b : List Text} (ha : ∀ name ∈ a, ¬ ifname <+: name) (hname : ifname <+: name) (index : Nat) :
    findInterface ifname index (a ++ name :: b) = some (index + a.length) := by
  induction a generalizing index with
  | nil => rw [List.nil_append, findInterface, if_pos (strncmpEq_iff.mpr hname), List.length_nil, Nat.add_zero]
  | cons name' a ih =>
      rw [List.forall_mem_cons] at ha
      have hno : ¬strncmpEq ifname.length name' ifname = true := fun h => ha.1 (strncmpEq_iff.mp h)
      rw [List.cons_append, findInterface, if_neg hno, ih ha.2, List.length_cons, Nat.add_right_comm, Nat.add_assoc]

/-- The name of an interface comes as it is. -/
theorem getInterfaceName_eq (i : IfName) : getInterfaceName i.name = some i.name := by
  have hname : (fgets ifNamSiz i.name).1 = i.name := by
    rw [fgets_text i.plain, List.take_of_length_le (Nat.le_sub_one_of_lt i.fits)]
  rw [getInterfaceName, hname]
  exact if_neg i.ne

theorem interfaceReference_injective {j k : Nat} (h : interfaceReference j = interfaceReference k) : j = k :=
  printNat_injective (List.append_cancel_left h)

end

section
variable {n : Network} {dhcpClient : DhcpClient}

theorem getInterfaceReference_first {a b : List Text} {name : Text}
    (hnames : n.interfaces.map IfName.name = a ++ name :: b) (ha : ∀ name ∈ a, ¬ n.ifname.name <+: name)
    (hname : n.ifname.name <+: name) :
    getInterfaceReference n.ifname.name (n.interfaces.map IfName.name) dhcpClient =
      some (interfaceReference (1 + a.length)) := by
  have hfields : fieldsInterface n.ifname.name (n.interfaces.map IfName.name) dhcpClient =
      (true, { dhcpClient with interface := interfaceReference (1 + a.length) }) := by
    rw [fieldsInterface, getInterfaceName_eq, hnames]
    simp only [findInterface_first ha hname]
  rw [getInterfaceReference, hfields]
  rfl

theorem getInterfaceReference_isSome :
    (getInterfaceReference n.ifname.name (n.interfaces.map IfName.name) dhcpClient).isSome = true := by
  have hok : (fieldsInterface n.ifname.name (n.interfaces.map IfName.name) dhcpClient).1 = true := by
    rw [fieldsInterface, getInterfaceName_eq]
    dsimp only
    cases findInterface n.ifname.name 1 (n.interfaces.map IfName.name) with
    | some index => rfl
    | none => rfl
  rw [getInterfaceReference, if_pos hok]
  rfl

/-- The number of an interface is its place, from 1. -/
theorem getElem?_number (a b : List Text) (name : Text) : (a ++ name :: b)[1 + a.length - 1]? = some name := by
  rw [Nat.add_sub_cancel_left, List.getElem?_append_right (Nat.le_refl _), Nat.sub_self, List.getElem?_cons_zero]

/-- **The reference is right exactly when** an interface has the name of the client's, and none before it a name that
begins so. -/
theorem reference_right_iff (n : Network) (dhcpClient : DhcpClient) : n.ReferenceRight dhcpClient ↔ n.NamedFirst := by
  constructor
  · intro h
    have hmem : n.ifname.name ∈ n.interfaces.map IfName.name := by
      by_contra hno
      have hsome : (getInterfaceReference n.ifname.name (n.interfaces.map IfName.name) dhcpClient).isSome = true :=
        getInterfaceReference_isSome
      rw [h.fails hno] at hsome
      cases hsome
    have hfound : ¬Free (fun name => strncmpEq n.ifname.name.length name n.ifname.name) (n.interfaces.map IfName.name) :=
      fun hfree => by
        have hself : strncmpEq n.ifname.name.length n.ifname.name n.ifname.name = true := decide_eq_true rfl
        exact Bool.false_ne_true ((hfree n.ifname.name hmem).symm.trans hself)
    obtain ⟨a, name, b, hnames, hfree, hname⟩ := exists_first hfound
    have ha : ∀ name ∈ a, ¬ n.ifname.name <+: name := fun name hmem hpre =>
      Bool.false_ne_true ((hfree name hmem).symm.trans (strncmpEq_iff.mpr hpre))
    obtain ⟨-, hk⟩ := h.only _ (getInterfaceReference_first hnames ha (strncmpEq_iff.mp hname))
    rw [hnames, getElem?_number, Option.some.injEq] at hk
    exact ⟨a, b, hk ▸ hnames, ha⟩
  · rintro ⟨a, b, hnames, ha⟩
    have hfirst : getInterfaceReference n.ifname.name (n.interfaces.map IfName.name) dhcpClient =
        some (interfaceReference (1 + a.length)) := getInterfaceReference_first hnames ha List.prefix_rfl
    constructor
    · intro k hk
      rw [hfirst, Option.some.injEq] at hk
      obtain rfl := interfaceReference_injective hk
      refine ⟨Nat.le_add_right 1 _, ?_⟩
      rw [hnames, getElem?_number]
    · intro hno
      refine absurd ?_ hno
      rw [hnames]
      exact List.mem_append_right a List.mem_cons_self

/-! ## The name servers -/

variable {taken : Text → Bool} {l : List Text}

theorem tokens_nil (delim : Char) (k : Nat) : tokens delim k [] = [] := by
  obtain - | k := k
  · rfl
  · rfl

theorem tokens_cons {x : Text} (hne : x ≠ []) (hx : ',' ∉ x) (k : Nat) (t : Text) :
    tokens ',' (k + 1) (x ++ ',' :: t) = x :: tokens ',' k t := by
  rw [tokens, strtokR_token hne hx]

theorem tokens_terminate (hl : ∀ x ∈ l, x ≠ [] ∧ ',' ∉ x) {k : Nat} (hk : l.length ≤ k) :
    tokens ',' k (terminate ',' l) = l := by
  induction l generalizing k with
  | nil => exact tokens_nil ',' k
  | cons x l ih =>
      rw [List.forall_mem_cons] at hl
      rw [List.length_cons] at hk
      obtain ⟨k, rfl⟩ : ∃ j, k = j + 1 := ⟨k - 1, by omega⟩
      rw [terminate_cons, tokens_cons hl.1.1 hl.1.2, ih hl.2 (by omega)]

/-- Without the last comma the tokens are the same. -/
theorem tokens_cut {x : Text} (hl : ∀ x ∈ l, x ≠ [] ∧ ',' ∉ x) (hne : x ≠ []) (hx : ',' ∉ x) {k : Nat}
    (hk : l.length < k) : tokens ',' k (terminate ',' l ++ x) = l ++ [x] := by
  induction l generalizing k with
  | nil =>
      obtain ⟨k, rfl⟩ : ∃ j, k = j + 1 := ⟨k - 1, by omega⟩
      have hnil : terminate ',' [] ++ x = x := rfl
      rw [hnil, tokens, strtokR_last hne hx]
      exact congrArg (List.cons x) (tokens_nil ',' k)
  | cons y l ih =>
      rw [List.forall_mem_cons] at hl
      rw [List.length_cons] at hk
      obtain ⟨k, rfl⟩ : ∃ j, k = j + 1 := ⟨k - 1, by omega⟩
      rw [terminate_cons, List.append_assoc, List.cons_append, tokens_cons hl.1.1 hl.1.2, ih hl.2 (by omega)]
      rfl

theorem length_le_terminate (l : List Text) : l.length ≤ (terminate ',' l).length := by
  induction l with
  | nil => exact Nat.le_refl 0
  | cons x l ih =>
      rw [terminate_cons, List.length_append, List.length_cons, List.length_cons]
      omega

/-- The tokens taken, with a comma behind each, as far as the buffer goes. -/
theorem tokenLoop_from {t : Text} (hl : (t ++ terminate ',' (l.filter taken)).length ≤ maxBufLen) :
    (tokenLoop taken (t.take (maxBufLen - 1), t.length) l).1 =
      (t ++ terminate ',' (l.filter taken)).take (maxBufLen - 1) := by
  induction l generalizing t with
  | nil => exact congrArg (List.take (maxBufLen - 1)) (List.append_nil t).symm
  | cons x l ih =>
      rw [tokenLoop]
      by_cases hx : taken x = true
      · rw [List.filter_cons_of_pos hx, terminate_cons] at hl ⊢
        have hlen : t.length < maxBufLen := by
          rw [List.length_append, List.length_append, List.length_cons] at hl
          omega
        have hput : putToken (t.take (maxBufLen - 1), t.length) x =
            ((t ++ (x ++ [','])).take (maxBufLen - 1), (t ++ (x ++ [','])).length) := by
          have hroom : maxBufLen - t.length - 1 = maxBufLen - 1 - t.length := by omega
          have hall : (t.take (maxBufLen - 1)).take t.length = t.take (maxBufLen - 1) :=
            List.take_of_length_le (List.length_take_le' _ _)
          have happ : (t ++ (x ++ [','])).take (maxBufLen - 1) =
              t.take (maxBufLen - 1) ++ (x ++ [',']).take (maxBufLen - 1 - t.length) := List.take_append
          rw [putToken, if_pos hlen, hall, hroom, happ, List.length_append, List.length_append, List.length_singleton]
        have hassoc : t ++ (x ++ ',' :: terminate ',' (l.filter taken)) =
            t ++ (x ++ [',']) ++ terminate ',' (l.filter taken) := by
          rw [List.append_assoc, List.append_assoc]
          rfl
        rw [if_pos hx, hput, hassoc]
        exact ih (hassoc ▸ hl)
      · rw [List.filter_cons_of_neg hx] at hl ⊢
        rw [if_neg hx]
        exact ih hl

theorem tokenLoop_eq (hl : (terminate ',' (l.filter taken)).length ≤ maxBufLen) :
    (tokenLoop taken ([], 0) l).1 = (terminate ',' (l.filter taken)).take (maxBufLen - 1) := tokenLoop_from (t := []) hl

/-- The texts with a comma behind each, and without the last comma. -/
theorem terminate_eq_joined (hl : l ≠ []) : terminate ',' l = [','].intercalate l ++ [','] := by
  induction l with
  | nil => exact absurd rfl hl
  | cons x l ih =>
      rw [terminate_cons]
      obtain rfl | hne := eq_or_ne l []
      · rw [List.intercalate_singleton]
        rfl
      · rw [List.intercalate_cons_of_ne_nil hne, ih hne, List.append_assoc, List.append_assoc]
        rfl

theorem dropLast_terminate (l : List Text) : (terminate ',' l).dropLast = [','].intercalate l := by
  obtain rfl | hne := eq_or_ne l []
  · rfl
  · rw [terminate_eq_joined hne, List.dropLast_concat]

theorem joined_eq_nil (hl : ∀ x ∈ l, x ≠ []) : [','].intercalate l = [] ↔ l = [] := by
  constructor
  · intro h
    by_contra hne
    obtain ⟨x, l, rfl⟩ := List.exists_cons_of_ne_nil hne
    have hlen := congrArg List.length (terminate_eq_joined hne)
    have hx := List.length_pos_iff.mpr (hl x List.mem_cons_self)
    rw [h, terminate_cons, List.length_append, List.length_cons, List.nil_append, List.length_singleton] at hlen
    omega
  · rintro rfl
    rfl

theorem joined_injective {l' : List Text} (hl : ∀ x ∈ l, x ≠ [] ∧ ',' ∉ x) (hl' : ∀ x ∈ l', x ≠ [] ∧ ',' ∉ x)
    (h : [','].intercalate l = [','].intercalate l') : l = l' := by
  have hnil := joined_eq_nil fun x hx => (hl x hx).1
  have hnil' := joined_eq_nil fun x hx => (hl' x hx).1
  obtain rfl | hne := eq_or_ne l []
  · exact (hnil'.mp (h.symm.trans (hnil.mpr rfl))).symm
  · have hne' : l' ≠ [] := fun heq => hne (hnil.mp (h.trans (hnil'.mpr heq)))
    apply terminate_inj (fun x hx => (hl x hx).2) (fun x hx => (hl' x hx).2)
    rw [terminate_eq_joined hne, terminate_eq_joined hne', h]

/-- What is taken and what is not make up the whole. -/
theorem length_filter (p : Text → Bool) (l : List Text) :
    (terminate ',' (l.filter p)).length + (terminate ',' (l.filter fun x => !p x)).length = (terminate ',' l).length := by
  induction l with
  | nil => rfl
  | cons x l ih =>
      rw [terminate_cons, List.length_append, List.length_cons]
      cases hx : p x with
      | true =>
          simp only [List.filter_cons, hx, if_true, Bool.not_true, Bool.false_eq_true, if_false, terminate_cons,
            List.length_append, List.length_cons]
          omega
      | false =>
          simp only [List.filter_cons, hx, if_true, Bool.not_false, Bool.false_eq_true, if_false, terminate_cons,
            List.length_append, List.length_cons]
          omega

/-- A part of the tokens is not shorter by one than all of them. -/
theorem length_filter_ne (p : Text → Bool) (hl : ∀ x ∈ l, x ≠ []) :
    (terminate ',' (l.filter p)).length + 1 ≠ (terminate ',' l).length := by
  have hparts := length_filter p l
  have hrest : ∀ x ∈ l.filter fun x => !p x, x ≠ [] := fun x hx => hl x (List.mem_of_mem_filter hx)
  generalize (l.filter fun x => !p x) = rest at hparts hrest
  obtain - | ⟨x, rest⟩ := rest
  · have hnil : (terminate ',' ([] : List Text)).length = 0 := rfl
    omega
  · have hx := List.length_pos_iff.mpr (hrest x List.mem_cons_self)
    rw [terminate_cons, List.length_append, List.length_cons] at hparts
    omega

end

namespace Network
variable (n : Network)

/-- The texts of the servers. -/
def texts : List Text := n.servers.map NameServer.text

/-- The server list is that of the servers to be listed, whatever was left in the buffer. -/
def DnsServerRight (dhcpClient : DhcpClient) : Prop :=
  getDnsServer n.ifname.name n.serverOutput n.routeOutput dhcpClient = some ([','].intercalate n.right)

/-- A server is taken when the first seven characters of its interface are the name of the client's. -/
def taken (server : Text) : Bool := strncmpEq opIfNameSize ((n.routeOutput server).take (opIfNameSize - 1)) n.ifname.name

/-- With the first server an address, the servers taken are those to be listed, and the list leaves room for a comma;
with the first no address, none is to be listed. -/
structure ServersApart : Prop where
  first : ∀ server ∈ n.texts.head?, isValidIPAddr server = true →
    (∀ server ∈ n.texts, n.taken server = true ↔ server ∈ n.right) ∧ ([','].intercalate n.right).length + 1 < maxBufLen
  noFirst : ∀ server ∈ n.texts.head?, isValidIPAddr server = false → n.right = []

variable {n}

theorem mem_texts {x : Text} (hx : x ∈ n.texts) : x ≠ [] ∧ ',' ∉ x := by
  obtain ⟨server, -, rfl⟩ := List.mem_map.mp hx
  exact ⟨server.ne, server.plain.1⟩

theorem mem_right {x : Text} (hx : x ∈ n.right) : x ∈ n.texts := List.mem_of_mem_filter hx

theorem length_serverOutput : (terminate ',' n.texts).length ≤ maxBufLen := by
  obtain hnil | hne := eq_or_ne n.texts []
  · rw [hnil]
    exact Nat.zero_le _
  · rw [terminate_eq_joined hne, List.length_append, List.length_singleton]
    exact n.joined

theorem serverOutput_plain : '\n' ∉ terminate ',' n.texts := by
  intro hmem
  obtain ⟨x, hx, hc⟩ := List.mem_flatMap.mp hmem
  obtain ⟨server, -, rfl⟩ := List.mem_map.mp hx
  obtain hc | hc := List.mem_append.mp hc
  · exact server.plain.2 hc
  · exact absurd (List.mem_singleton.mp hc) (by decide)

/-- The servers come out of the buffer as they are. -/
theorem tokens_buffer : tokens ',' ((terminate ',' n.texts).take (maxBufLen - 1)).length
    ((terminate ',' n.texts).take (maxBufLen - 1)) = n.texts := by
  have hlen := length_serverOutput (n := n)
  obtain hfits | hfull := Nat.lt_or_ge (maxBufLen - 1) (terminate ',' n.texts).length
  · obtain hnil | ⟨l, x, hconcat⟩ := List.eq_nil_or_concat n.texts
    · rw [hnil] at hfits
      cases hfits
    · rw [List.concat_eq_append] at hconcat
      have hl : ∀ y ∈ l ++ [x], y ≠ [] ∧ ',' ∉ y := fun y hy => mem_texts (hconcat ▸ hy)
      have hx := hl x (List.mem_append_right l (List.mem_singleton_self x))
      have hsplit : terminate ',' n.texts = terminate ',' l ++ x ++ [','] := by
        rw [hconcat, terminate_append, terminate_cons, List.append_assoc]
        rfl
      have hcut : (terminate ',' n.texts).take (maxBufLen - 1) = terminate ',' l ++ x := by
        rw [hsplit]
        apply List.take_left'
        rw [hsplit, List.length_append, List.length_singleton] at hlen hfits
        omega
      rw [hcut, tokens_cut (fun y hy => hl y (List.mem_append_left _ hy)) hx.1 hx.2, hconcat]
      have hpos := List.length_pos_iff.mpr hx.1
      have hle := length_le_terminate l
      rw [List.length_append]
      omega
  · rw [List.take_of_length_le hfull]
    exact tokens_terminate (fun x hx => mem_texts hx) (length_le_terminate _)

theorem taken_eq (token : Text) :
    isIfnameInroutetoDNSServer n.routeOutput token n.ifname.name = n.taken token := by
  have hplain : '\n' ∉ n.routeOutput token := by
    rw [routeOutput]
    cases n.route token with
    | none => exact List.not_mem_nil
    | some i => exact i.plain
  rw [isIfnameInroutetoDNSServer, taken, fgets_text hplain]

theorem getDnsServer_eq (dhcpClient : DhcpClient) :
    getDnsServer n.ifname.name n.serverOutput n.routeOutput dhcpClient =
      some (if n.texts.head?.any isValidIPAddr = true then
        ((terminate ',' (n.texts.filter n.taken)).take (maxBufLen - 1)).dropLast else []) := by
  have hbuf : (fgets maxBufLen n.serverOutput).1 = (terminate ',' n.texts).take (maxBufLen - 1) :=
    fgets_text serverOutput_plain maxBufLen
  have htaken : (fun token => isIfnameInroutetoDNSServer n.routeOutput token n.ifname.name) = n.taken := funext taken_eq
  have hlen : (terminate ',' (n.texts.filter n.taken)).length ≤ maxBufLen := by
    have hparts := length_filter n.taken n.texts
    have hall := length_serverOutput (n := n)
    omega
  simp only [getDnsServer, fieldsDnsservers, getInterfaceName_eq, hbuf, tokens_buffer, htaken, tokenLoop_eq hlen]
  split
  · rfl
  · rfl

/-- The servers taken are those to be listed. -/
theorem filter_taken_iff :
    n.texts.filter n.taken = n.right ↔ ∀ server ∈ n.texts, n.taken server = true ↔ server ∈ n.right := by
  constructor
  · intro h server hserver
    rw [← h, List.mem_filter, and_iff_right hserver]
  · intro h
    apply List.filter_congr
    intro server hserver
    have hiff := h server hserver
    rw [right, List.mem_filter] at hiff
    rw [Bool.eq_iff_iff, hiff]
    exact and_iff_right hserver

/-- The list that is made of the servers taken is the right one when they are, and when the last comma has room. -/
theorem list_eq_iff :
    ((terminate ',' (n.texts.filter n.taken)).take (maxBufLen - 1)).dropLast = [','].intercalate n.right ↔
      n.texts.filter n.taken = n.right ∧ ([','].intercalate n.right).length + 1 < maxBufLen := by
  have hparts := length_filter n.taken n.texts
  have hall := length_serverOutput (n := n)
  have hjoined : ∀ l : List Text, (terminate ',' l).length ≤ ([','].intercalate l).length + 1 := fun l => by
    rw [← dropLast_terminate, List.length_dropLast]
    omega
  have hroom : ([','].intercalate n.right).length + 1 < maxBufLen → (terminate ',' n.right).length ≤ maxBufLen - 1 :=
    fun h => (hjoined n.right).trans (Nat.le_sub_one_of_lt h)
  constructor
  · intro h
    by_cases hfits : (terminate ',' (n.texts.filter n.taken)).length ≤ maxBufLen - 1
    · rw [List.take_of_length_le hfits, dropLast_terminate] at h
      have hsame : n.texts.filter n.taken = n.right :=
        joined_injective (fun x hx => mem_texts (List.mem_of_mem_filter hx)) (fun x hx => mem_texts (mem_right hx)) h
      refine ⟨hsame, ?_⟩
      rw [hsame] at hfits
      rw [← dropLast_terminate, List.length_dropLast]
      rw [maxBufLen] at hfits ⊢
      omega
    · -- All servers are taken, and the list loses its last character: no part of them is shorter by one.
      exfalso
      have hlen := congrArg List.length h
      have hne : (terminate ',' n.right).length + 1 ≠ (terminate ',' n.texts).length :=
        length_filter_ne _ fun x hx => (mem_texts hx).1
      rw [← dropLast_terminate, List.length_dropLast, List.length_dropLast, List.length_take] at hlen
      rw [maxBufLen] at hfits hall hlen
      omega
  · rintro ⟨hsame, hlen⟩
    rw [hsame, List.take_of_length_le (hroom hlen), dropLast_terminate]

/-- **The list of servers is right exactly when** the servers taken are those to be listed, all of them addresses if the
first is. -/
theorem dnsServer_right_iff (dhcpClient : DhcpClient) : n.DnsServerRight dhcpClient ↔ n.ServersApart := by
  rw [DnsServerRight, getDnsServer_eq, Option.some.injEq]
  have hnil : ([] : Text) = [','].intercalate n.right ↔ n.right = [] :=
    eq_comm.trans (joined_eq_nil fun x hx => (mem_texts (mem_right hx)).1)
  cases hhead : n.texts.head? with
  | none =>
      have hright : n.right = [] := by
        rw [right, show n.servers.map NameServer.text = [] from List.head?_eq_none_iff.mp hhead]
        rfl
      refine iff_of_true ?_ ⟨fun server hserver => ?_, fun _ _ _ => hright⟩
      · rw [hright]
        rfl
      · rw [hhead] at hserver
        cases hserver
  | some server =>
      by_cases hvalid : isValidIPAddr server = true
      · rw [Option.any_some, if_pos hvalid, list_eq_iff, filter_taken_iff]
        constructor
        · refine fun h => ⟨fun _ _ _ => h, fun server' hserver' hno => ?_⟩
          rw [hhead, Option.mem_some] at hserver'
          rw [← hserver', hvalid] at hno
          cases hno
        · exact fun h => h.first server hhead hvalid
      · rw [Option.any_some, if_neg hvalid, hnil]
        constructor
        · refine fun h => ⟨fun server' hserver' hyes => ?_, fun _ _ _ => h⟩
          rw [hhead, Option.mem_some] at hserver'
          exact absurd (hserver' ▸ hyes) hvalid
        · exact fun h => h.noFirst server hhead (Bool.eq_false_iff.mpr hvalid)

end Network

/-- **The fields are right exactly when** the first interface whose name begins with the client's has that name, and the
servers that are taken are those to be listed. -/
theorem fields_right_iff (n : Network) (dhcpClient : DhcpClient) :
    (n.ReferenceRight dhcpClient ↔ n.NamedFirst) ∧ (n.DnsServerRight dhcpClient ↔ n.ServersApart) :=
  ⟨reference_right_iff n dhcpClient, Network.dnsServer_right_iff dhcpClient⟩

/-- `wlan0`. -/
def wlanName : IfName := ⟨"wlan0".toList, by decide, by decide, by decide⟩

/-- A client on `wlan0`, which is no IP interface, with an IPv6 server behind an IPv4 one. -/
def wlanNetwork : Network where
  ifname := wlanName
  interfaces := [⟨"wlan01".toList, by decide, by decide, by decide⟩]
  servers := [⟨"8.8.8.8".toList, by decide, by decide⟩, ⟨"2001:db8::1".toList, by decide, by decide⟩]
  route := fun _ => some wlanName
  joined := by decide

/-- The client is given the interface of a longer name, and the IPv6 server is listed. -/
theorem wlan_not_right : ¬wlanNetwork.ReferenceRight ⟨[], []⟩ ∧ ¬wlanNetwork.DnsServerRight ⟨[], []⟩ := by
  constructor
  · exact fun h => absurd (h.fails (by decide)) (by decide +kernel)
  · exact fun h => absurd (Option.some.inj h) (by decide +kernel)

end Tr69HostIf.DHCPv4
