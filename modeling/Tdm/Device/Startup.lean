import Tdm.Device.RecvTheorems
import Tdm.Common.DeviceNumber

/-!
# The registry from start-up on

`main` calls `TDM_init` and then serves messages. `TDM_init` does not call
`ConnectToMysqlInit`, the only function that sets up the list of devices; `server` has both
start-ups, with the call and without it. Without it no message that searches the list can
be served.
-/

namespace Tdm.Device

open Tdm.Lib Tdm.Common

/-- The commands that look their device up while they are decoded. -/
def looksUp (cmd : Cmd) : Bool := cmd ∈ [Cmd.localSta, .autonet, .getApnInfo, .adn]

/-- The serial number `get_data_list_by_SN` is entered with while a message is handled, if
it is entered. -/
def lookedUp (para : Session) (msg : List UInt8) : Option (List UInt8) :=
  match routeOf msg with
  | some .web => (getValue (msg.takeWhile (· ≠ 0))).map WebRequest.sn
  | some (.device cmd) =>
    if looksUp cmd ∧ para.node = none ∧ isValidSN para.snArg.bytes then some para.snArg.key
    else none
  | _ => none

/-- What happens at the port of the server. -/
inductive PortEvent
  | accept (fd : ℤ)
  | message (para : Session) (fd : ℤ) (w : World) (msg : List UInt8)

/-- The registry when `run` is entered, with `ConnectToMysqlInit` called before or not. -/
def start (mysqlInit : Bool) : Registry :=
  if mysqlInit then connectToMysqlInit else Registry.zeroed

/-- What `TDM_init` leaves: the call is commented out. -/
def tdmInit : Registry := start false

/-- One event. A message whose handling is undefined has no successor. -/
inductive Serves (r : Registry) : PortEvent → Registry → Prop
  | accept (fd : ℤ) : Serves r (.accept fd) r
  | message (para : Session) (fd : ℤ) (w : World) (msg : List UInt8) (reaction : Reaction)
      (h : socketReadCb r para fd w msg = some reaction) :
      Serves r (.message para fd w msg) reaction.registry

/-- The server from its start-up on. -/
def server (mysqlInit : Bool) : System Registry PortEvent where
  init r := r = start mysqlInit
  step := Serves

/-! ## What a message does to the registry -/

/-- The registry a message may leave. -/
inductive Settled (r : Registry) (para : Session) (malloc : Bool) : Registry → Prop
  | same : Settled r para malloc r
  | obtained {node : Option ℕ} {r₁ : Registry}
      (hnode : sessionNode r para malloc = some (node, r₁)) : Settled r para malloc r₁
  /-- the node is changed, but not its key -/
  | stored {i : ℕ} {r₁ : Registry} {f : DataSpm → DataSpm}
      (hnode : sessionNode r para malloc = some (some i, r₁)) (hi : i < r₁.nodes.length)
      (hf : ∀ node, (f node).key = node.key) : Settled r para malloc (r₁.modify i f)

/-- The number of bytes does not matter for the look-up. -/
theorem Settled.of_num {r r' : Registry} {para : Session} {num : ℤ} {malloc : Bool}
    (h : Settled r { para with num } malloc r') : Settled r para malloc r' := by
  cases h with
  | same => exact .same
  | obtained hnode => exact .obtained hnode
  | stored hnode hi hf => exact .stored hnode hi hf

theorem key_receiveLocal (node : DataSpm) (para : Session) (tempBuf : CArray 256) (fd : ℤ) :
    (receiveLocal node para tempBuf fd).key = node.key := by
  unfold receiveLocal
  rw [DataSpm.key, DataSpm.read_copyField _ _ _ _ (by decide)]
  split
  · rw [DataSpm.read_copyField _ _ _ _ (by decide), DataSpm.read_setInt _ _ (by decide),
      DataSpm.read_setInt _ _ (by decide)]
    rfl
  · rw [DataSpm.read_setInt _ _ (by decide), DataSpm.read_setInt _ _ (by decide)]
    rfl

theorem key_codingWithLocal (node : DataSpm) : (codingWithLocal node).1.key = node.key := by
  unfold codingWithLocal
  simp only
  split
  · rw [DataSpm.key_setNat _ _ (by decide), DataSpm.key_setNat _ _ (by decide)]
  · rw [DataSpm.key_setNat _ _ (by decide)]

section Message
variable {r : Registry} {para : Session} {fd : ℤ} {w : World} {msg : List UInt8}
  {received : Received}

theorem codingWithLocalSocket_settled {buf : CArray 512} {tempBuf : CArray 256}
    (h : codingWithLocalSocket r buf tempBuf para fd w = some received) :
    Settled r para w.malloc received.registry := by
  obtain ⟨-, found, r₁, hnode, hr₁ | ⟨i, para', tempBuf', rfl, hi, hr₁⟩⟩ :=
    codingWithLocalSocket_cases h
  · rw [hr₁]
    exact .obtained hnode
  · rw [hr₁]
    apply Settled.stored hnode hi
    intro node
    rw [key_codingWithLocal, key_receiveLocal]

theorem codingWithRecvData_settled
    (h : codingWithRecvData r para fd w msg = some received) :
    Settled r para w.malloc received.registry := by
  rcases codingWithRecvData_cases h with ⟨hsame, -⟩ | ⟨hfit, cmd, -, hbranch⟩
  · rw [hsame]
    exact .same
  · rcases deviceBranch_cases hbranch with ⟨hsame, -⟩ | ⟨-, hlocal⟩ | ⟨-, found, hnode⟩
    · rw [hsame]
      exact .same
    · exact (codingWithLocalSocket_settled hlocal).of_num
    · exact .obtained hnode

theorem socketReadCb_settled {reaction : Reaction}
    (h : socketReadCb r para fd w msg = some reaction) :
    Settled r para w.malloc reaction.registry := by
  rw [socketReadCb_eq] at h
  obtain ⟨received, hreceived, h⟩ := Option.bind_eq_some_iff.mp h
  obtain ⟨log, -, rfl⟩ := Option.map_eq_some_iff.mp h
  exact codingWithRecvData_settled hreceived

end Message

/-- The node of a session is its own, or nobody's, or the one found or added. -/
theorem sessionNode_cases {r r₁ : Registry} {para : Session} {malloc : Bool} {node : Option ℕ}
    (h : sessionNode r para malloc = some (node, r₁)) :
    r₁ = r ∨ (isValidSN para.snArg.bytes = true ∧
      getNodeBySN r para.snArg malloc = some (node, r₁)) := by
  unfold sessionNode at h
  split at h
  · cases h
    exact .inl rfl
  · by_cases hsn : isValidSN para.snArg.bytes = true
    · exact .inr ⟨hsn, h⟩
    · rw [getNodeBySN, if_neg hsn] at h
      cases h
      exact .inl rfl

/-! ## Without the call -/

/-- The first link of the list is `NULL`. -/
theorem getDataListBySN_zeroed (key : List UInt8) : getDataListBySN .zeroed key = none := rfl

theorem Settled.zeroed {r : Registry} {para : Session} {malloc : Bool}
    (h : Settled .zeroed para malloc r) : r = .zeroed := by
  have hsame {node : Option ℕ} {r₁ : Registry}
      (hnode : sessionNode .zeroed para malloc = some (node, r₁)) : r₁ = .zeroed := by
    rcases sessionNode_cases hnode with heq | ⟨hsn, hget⟩
    · exact heq
    · rw [getNodeBySN, if_pos hsn] at hget
      cases hget
  cases h with
  | same => rfl
  | obtained hnode => exact hsame hnode
  | stored hnode hi hf =>
    rw [hsame hnode] at hi
    exact absurd hi (Nat.not_lt_zero _)

/-! ## With the call -/

theorem Settled.sound {r r' : Registry} {para : Session} {malloc : Bool}
    (h : Settled r para malloc r') (hr : r.Sound) : r'.Sound := by
  have hobtained {node : Option ℕ} {r₁ : Registry}
      (hnode : sessionNode r para malloc = some (node, r₁)) : r₁.Sound := by
    rcases sessionNode_cases hnode with rfl | ⟨hsn, hget⟩
    · exact hr
    · obtain ⟨node', r₂, ho, hget'⟩ := getNodeBySN_obtains hr hsn malloc
      obtain ⟨rfl, rfl⟩ := Prod.mk.inj (Option.some.inj (hget'.symm.trans hget))
      exact (ho.sound hr).onNode node' key_closeSocketSpm
  cases h with
  | same => exact hr
  | obtained hnode => exact hobtained hnode
  | stored hnode hi hf => exact (hobtained hnode).modify _ hf

/-! ## Both -/

theorem Serves.settled {r r' : Registry} {e : PortEvent} (h : Serves r e r') :
    ∃ para malloc, Settled r para malloc r' := by
  cases h with
  | accept fd => exact ⟨anonymous, false, .same⟩
  | message para fd w msg reaction h => exact ⟨para, w.malloc, socketReadCb_settled h⟩

/-- The list is sound in every state if it was set up, and never set up later if not. -/
theorem reachable_registry {mysqlInit : Bool} {r : Registry}
    (h : (server mysqlInit).Reachable r) :
    if mysqlInit then r.Sound else r = .zeroed := by
  apply h.invariant (I := fun r => if mysqlInit then r.Sound else r = .zeroed)
  · rintro r rfl
    cases mysqlInit with
    | false => exact rfl
    | true => exact sound_connectToMysqlInit
  · intro r e r' _ hr hstep
    obtain ⟨para, malloc, hsettled⟩ := Serves.settled hstep
    cases mysqlInit with
    | false =>
      obtain rfl : r = .zeroed := hr
      exact hsettled.zeroed
    | true => exact hsettled.sound hr

theorem getNodeBySN_of_undefined {r : Registry} {sn : SnArg}
    (hsn : isValidSN sn.bytes = true) (hlist : getDataListBySN r sn.key = none) (malloc : Bool) :
    getNodeBySN r sn malloc = none := by
  rw [getNodeBySN, if_pos hsn, getNodeLocked, findOrAdd, hlist]
  rfl

/-- A message whose look-up is undefined is not served. -/
theorem socketReadCb_of_lookedUp {r : Registry} {para : Session} (fd : ℤ) (w : World)
    {msg key : List UInt8} (hkey : lookedUp para msg = some key)
    (hlist : getDataListBySN r key = none) : socketReadCb r para fd w msg = none := by
  rw [socketReadCb_eq]
  unfold lookedUp at hkey
  split at hkey
  · rename_i hroute
    obtain ⟨para1, hvalue, rfl⟩ := Option.map_eq_some_iff.mp hkey
    rw [codingWithRecvData_of_web r para fd w (fits_of_routeOf hroute) hroute]
    simp only [clientWebManage, hvalue, hlist, Option.bind_eq_bind, Option.bind_some,
      Option.bind_none, Option.map_none]
  · rename_i cmd hroute
    rw [codingWithRecvData_of_device r para fd w (fits_of_routeOf hroute) hroute]
    split at hkey
    · rename_i hlooks
      obtain ⟨hcmd, hnode, hsn⟩ := hlooks
      obtain rfl := Option.some.inj hkey
      have hnone (num : ℤ) (imsi : CArray 12) :
          sessionNode r { para with num, imsi } w.malloc = none := by
        unfold sessionNode
        simp only [hnode]
        exact getNodeBySN_of_undefined hsn hlist w.malloc
      cases cmd with
      | localSta =>
        simp only [deviceBranch, codingWithLocalSocket, Session.copyIMSI, hnone,
          Option.bind_eq_bind, Option.bind_none]
      | autonet | getApnInfo | adn =>
        simp only [deviceBranch, codingWithOutSql, hnone, Option.bind_eq_bind, Option.bind_none]
      | _ => exact absurd hcmd (by decide)
    · cases hkey
  · cases hkey

/-- Whenever a message makes the server search the list of devices, the list is a well-formed
circular list and the search ends, exactly when the list was set up at start-up or the
message makes no search. -/
theorem lookup_wellFormed_iff {mysqlInit : Bool} {r : Registry}
    (h : (server mysqlInit).Reachable r) (para : Session) (msg : List UInt8) :
    (∀ key, lookedUp para msg = some key →
      CircularList r.next r.prev (List.range r.nodes.length) ∧ getDataListBySN r key ≠ none) ↔
    mysqlInit = true ∨ lookedUp para msg = none := by
  have hr := reachable_registry h
  cases mysqlInit with
  | false =>
    obtain rfl : r = .zeroed := hr
    constructor
    · intro hall
      right
      by_contra hne
      obtain ⟨key, hkey⟩ := Option.ne_none_iff_exists'.mp hne
      exact (hall key hkey).2 (getDataListBySN_zeroed key)
    · rintro (hcall | hnone)
      · cases hcall
      · intro key hkey
        rw [hnone] at hkey
        cases hkey
  | true =>
    have hsound : r.Sound := hr
    refine ⟨fun _ => .inl rfl, fun _ key _ => ⟨hsound.ring, ?_⟩⟩
    rcases getDataListBySN_spec hsound key with ⟨i, hget, -⟩ | ⟨hget, -⟩
    · rw [hget]
      exact Option.some_ne_none _
    · rw [hget]
      exact Option.some_ne_none _

/-- The first request after a start-up with the call. -/
theorem lookup_wellFormed_iff_first_request :
    lookedUp anonymous (text "\x7b\"sn\":\"172150210000937\"\x7d") =
        some (text "172150210000937") ∧
      getDataListBySN (start true) (text "172150210000937") ≠ none := by
  have hkey : lookedUp anonymous (text "\x7b\"sn\":\"172150210000937\"\x7d") =
      some (text "172150210000937") := by decide
  have hreach : (server true).Reachable (start true) := .start rfl
  exact ⟨hkey, ((lookup_wellFormed_iff hreach _ _).mpr (.inl rfl) _ hkey).2⟩

/-- The first request after the start-up of `main` searches a list that was never set up. -/
theorem request_before_initialisation :
    (server false).Reachable tdmInit ∧
      lookedUp anonymous (text "\x7b\"sn\":\"172150210000937\"\x7d") =
        some (text "172150210000937") ∧
      ¬ CircularList tdmInit.next tdmInit.prev (List.range tdmInit.nodes.length) ∧
      socketReadCb tdmInit anonymous 5 .silent (text "\x7b\"sn\":\"172150210000937\"\x7d") =
        none := by
  have hkey : lookedUp anonymous (text "\x7b\"sn\":\"172150210000937\"\x7d") =
      some (text "172150210000937") := by decide
  refine ⟨.start rfl, hkey, ?_, socketReadCb_of_lookedUp _ _ hkey rfl⟩
  intro hring
  cases hring.forward

end Tdm.Device
