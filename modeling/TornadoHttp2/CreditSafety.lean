import TornadoHttp2.FlowAccounts

/-! Send-side flow control is safe under every interleaving of writers, of
WINDOW_UPDATE frames and of everything else that a connection does. -/

namespace TornadoHttp2

open Prog

/-- The books of a stream whose writer has debited `own` from the stream's window
and `parent` from the connection's for a piece that is not written yet. -/
structure Accounts (s : Stream) (log : List Event) (own parent : Int) : Prop where
  size : s.window.size = total Event.initialSize log + total (Event.credit (some s.streamId)) log -
    total (Event.debit (some s.streamId)) log
  nonneg : 0 ≤ s.window.size
  fair : ∀ e ∈ log, e.fair
  data : total Event.dataBytes log + own ≤ total (Event.debit (some s.streamId)) log
  parentData : total Event.dataBytes log + parent ≤ total (Event.debit none) log

def ownPiece : Owner → Int
  | .writer (.chunk _ _) (.consume amount) => amount
  | _ => 0

def parentPiece : Owner → Int
  | .writer (.chunk _ _) (.parent amount) => amount
  | .writer (.chunk _ _) (.consume amount) => amount
  | _ => 0

/-- The piece that the owner of the lock is after fits its chunk, and the stream's
window as long as it has not been debited from it. -/
def PieceFits (owner : Owner) (size : Int) : Prop :=
  match owner with
  | .writer (.chunk chunk _) (.parentCond amount _) => 1 ≤ amount ∧ amount ≤ chunk.length ∧ amount ≤ size
  | .writer (.chunk chunk _) (.parent amount) => 1 ≤ amount ∧ amount ≤ chunk.length ∧ amount ≤ size
  | .writer (.chunk chunk _) (.consume amount) => 1 ≤ amount ∧ amount ≤ chunk.length
  | _ => True

def StreamBalanced (self : Stream) (log : List Event) : Prop :=
  Accounts self log (ownPiece self.writeLock.owner) (parentPiece self.writeLock.owner) ∧
    PieceFits self.writeLock.owner self.window.size

def ConnBalanced (c : Conn) : Prop :=
  c.window.size = Setting.initialWindowSize.default + total (Event.credit none) c.log -
    total (Event.debit none) c.log ∧ 0 ≤ c.window.size

/-- What the books of the streams need to know about those of the connection. -/
class TracksCredit (Q : Conn → Prop) : Prop where
  unpaid {c c' : Conn} : Q c → c'.window = c.window →
    Grows (fun e => e.credit none = 0 ∧ e.debit none = 0) c.log c'.log → Q c'
  takes {c : Conn} {i : Nat} {asked taken : Int} : Q c → taken ≤ c.window.size →
    Q { c with
      window := { c.window with size := c.window.size - taken }
      log := c.log ++ [.consumed none i asked taken] }

abbrev Balanced (Q : Conn → Prop) (c : Ctx) : Prop := Own StreamBalanced Q c

namespace Accounts

variable {self self' : Stream} {log : List Event} {own parent : Int}

theorem neutral (h : Accounts self log own parent) (hid : self'.streamId = self.streamId)
    (hwindow : self'.window = self.window) {es : List Event} (hes : ∀ e ∈ es, e.isNeutral) :
    Accounts self' (log ++ es) own parent := by
  have hcredit : total (Event.credit (some self.streamId)) es = 0 :=
    total_eq_zero fun e he => (hes e he).credit
  have hdebit (w : Option Nat) : total (Event.debit w) es = 0 :=
    total_eq_zero fun e he => (hes e he).debit
  have hinitial : total Event.initialSize es = 0 := total_eq_zero fun e he => (hes e he).initialSize
  have hdata : total Event.dataBytes es = 0 := total_eq_zero fun e he => (hes e he).dataBytes
  constructor
  · simpa [hid, hwindow, hcredit, hdebit, hinitial] using h.size
  · exact hwindow ▸ h.nonneg
  · exact fun e he => (List.mem_append.mp he).elim (h.fair e) fun he => (hes e he).fair
  · simpa [hid, hdebit, hdata] using h.data
  · simpa [hdebit, hdata] using h.parentData

theorem weaken (h : Accounts self log own parent) {own' parent' : Int} (hown : own' ≤ own)
    (hparent : parent' ≤ parent) : Accounts self log own' parent' :=
  ⟨h.size, h.nonneg, h.fair, (add_le_add_right hown _).trans h.data,
    (add_le_add_right hparent _).trans h.parentData⟩

theorem takes (h : Accounts self log own parent) (self' : Stream) (hid : self'.streamId = self.streamId)
    (hwindow : self'.window = self.window) {asked taken : Int} (hfair : 1 ≤ taken ∧ taken ≤ asked) :
    Accounts self' (log ++ [.consumed none self.streamId asked taken]) own (parent + taken) := by
  obtain ⟨hsize, hnonneg, hfairs, hdata, hparent⟩ := h
  constructor
  · simpa [hid, hwindow, Event.initialSize, Event.credit, Event.debit] using hsize
  · rwa [hwindow]
  · exact List.forall_mem_append.mpr ⟨hfairs, List.forall_mem_singleton.mpr hfair⟩
  · simpa [hid, Event.dataBytes, Event.debit] using hdata
  · simp only [total_append, total_singleton, Event.dataBytes, Event.debit, if_true]
    omega

theorem debits (h : Accounts self log own parent) (self' : Stream) (hid : self'.streamId = self.streamId)
    {asked amount : Int} (hwindow : self'.window.size = self.window.size - amount)
    (hfair : 1 ≤ amount ∧ amount ≤ asked) (hsize : amount ≤ self.window.size) :
    Accounts self' (log ++ [.consumed (some self.streamId) self.streamId asked amount])
      (own + amount) parent := by
  obtain ⟨hwin, hnonneg, hfairs, hdata, hparent⟩ := h
  constructor
  · simp only [hid, hwindow, hwin, total_append, total_singleton, Event.initialSize, Event.credit,
      Event.debit, if_true]
    omega
  · omega
  · exact List.forall_mem_append.mpr ⟨hfairs, List.forall_mem_singleton.mpr hfair⟩
  · simp only [hid, total_append, total_singleton, Event.dataBytes, Event.debit, if_true]
    omega
  · simpa [Event.dataBytes, Event.debit] using hparent

theorem writes (h : Accounts self log own parent) (self' : Stream) (frame : Frame)
    (hid : self'.streamId = self.streamId) (hwindow : self'.window = self.window) (hdata : frame.type = .data)
    {n : Int} (hn : (frame.data.length : Int) = n) :
    Accounts self' (log ++ [.wrote frame]) (own - n) (parent - n) := by
  obtain ⟨hsize, hnonneg, hfairs, hown, hparent⟩ := h
  constructor
  · simpa [hid, hwindow, Event.initialSize, Event.credit, Event.debit] using hsize
  · rwa [hwindow]
  · exact List.forall_mem_append.mpr ⟨hfairs, List.forall_mem_singleton.mpr trivial⟩
  · simp only [hid, total_append, total_singleton, Event.dataBytes, Event.debit, hdata, if_true, hn]
    omega
  · simp only [total_append, total_singleton, Event.dataBytes, Event.debit, hdata, if_true, hn]
    omega

theorem credits (h : Accounts self log own parent) (self' : Stream) (hid : self'.streamId = self.streamId)
    {amount : Nat} (hwindow : self'.window.size = self.window.size + amount) :
    Accounts self' (log ++ [.credited (some self.streamId) amount]) own parent := by
  obtain ⟨hsize, hnonneg, hfairs, hown, hparent⟩ := h
  constructor
  · simp only [hid, hwindow, hsize, total_append, total_singleton, Event.initialSize, Event.credit,
      Event.debit, if_true]
    omega
  · omega
  · exact List.forall_mem_append.mpr ⟨hfairs, List.forall_mem_singleton.mpr trivial⟩
  · simpa [hid, Event.dataBytes, Event.debit] using hown
  · simpa [Event.dataBytes, Event.debit] using hparent

end Accounts

theorem pieces_nonneg {owner : Owner} {size : Int} (h : PieceFits owner size) :
    0 ≤ ownPiece owner ∧ 0 ≤ parentPiece owner := by
  rcases owner with _ | ⟨_ | _, _ | _ | _ | _ | _ | _⟩ | _ <;>
    simp only [ownPiece, parentPiece, PieceFits, le_refl, and_self, true_and] at h ⊢ <;> omega

instance : TracksCredit ConnBalanced where
  unpaid := by
    rintro c c' h hwindow ⟨es, hlog, hes⟩
    have hcredit : total (Event.credit none) es = 0 := total_eq_zero fun e he => (hes e he).1
    have hdebit : total (Event.debit none) es = 0 := total_eq_zero fun e he => (hes e he).2
    simpa [ConnBalanced, hwindow, hlog, hcredit, hdebit] using h
  takes := by
    rintro c i asked taken ⟨hsize, _⟩ htaken
    refine ⟨?_, sub_nonneg.mpr htaken⟩
    simp only [hsize, total_append, total_singleton, Event.credit, Event.debit, if_true]
    omega

instance : TracksCredit fun _ => True := ⟨fun _ _ _ => trivial, fun _ _ => trivial⟩

section

variable {Q : Conn → Prop}

/-- A lock whose owner holds no credit. -/
theorem Balanced.withLock {c : Ctx} (h : Balanced Q c) (lock : WriteLock) (hown : ownPiece lock.owner = 0)
    (hparent : parentPiece lock.owner = 0) (hfits : PieceFits lock.owner c.self.window.size) :
    Balanced Q (c.withLock lock) := by
  obtain ⟨hnonneg, hnonneg'⟩ := pieces_nonneg h.1.2
  refine ⟨⟨?_, hfits⟩, h.2⟩
  have hweak : Accounts _ _ (ownPiece lock.owner) (parentPiece lock.owner) :=
    h.1.1.weaken (hown ▸ hnonneg) (hparent ▸ hnonneg')
  exact ⟨hweak.size, hweak.nonneg, hweak.fair, hweak.data, hweak.parentData⟩

theorem Balanced.withOwner {c : Ctx} (h : Balanced Q c) (owner : Owner) (hown : ownPiece owner = 0)
    (hparent : parentPiece owner = 0) (hfits : PieceFits owner c.self.window.size) :
    Balanced Q (c.withOwner owner) :=
  h.withLock { c.self.writeLock with owner } hown hparent hfits

theorem Balanced.released {c : Ctx} (h : Balanced Q c) : Balanced Q c.released := by
  refine h.withLock _ ?_ ?_ ?_ <;> rw [WriteLock.release] <;>
    rcases c.self.writeLock.waiters with _ | ⟨_ | _, _⟩ <;> trivial

theorem Balanced.wants {c : Ctx} (h : Balanced Q c) {chunk : Bytes} {callback : Option Nat}
    {point : YieldPoint} {amount : Int}
    (howner : c.self.writeLock.owner = .writer (.chunk chunk callback) point)
    (hwants : c.Wants chunk point amount) :
    1 ≤ amount ∧ amount ≤ chunk.length ∧ amount ≤ c.self.window.size := by
  rcases hwants with ⟨since, rfl⟩ | ⟨hchunk, hsize, rfl⟩
  · have hfits := h.1.2
    rwa [howner] at hfits
  · have := List.length_pos_iff.mpr hchunk
    split <;> omega

variable [TracksCredit Q]

theorem TracksCredit.neutral {c c' : Conn} (h : Q c) (hwindow : c'.window = c.window)
    (hlog : Grows Event.isNeutral c.log c'.log) : Q c' :=
  TracksCredit.unpaid h hwindow (hlog.mono fun _ he => ⟨he.credit, he.debit⟩)

theorem Balanced.neutral {c c' : Ctx} (h : Balanced Q c) (hid : c'.self.streamId = c.self.streamId)
    (hlock : c'.self.writeLock.owner = c.self.writeLock.owner) (hself : c'.self.window = c.self.window)
    (hconn : c'.conn.window = c.conn.window) (hlog : Grows Event.isNeutral c.conn.log c'.conn.log) :
    Balanced Q c' := by
  refine ⟨?_, TracksCredit.neutral h.2 hconn hlog⟩
  obtain ⟨es, hlog, hes⟩ := hlog
  rw [StreamBalanced, hlock, hself, hid, hlog, logOf_append]
  exact ⟨h.1.1.neutral hid hself fun e he => hes e (mem_logOf.mp he).1, h.1.2⟩

theorem Balanced.logged {c : Ctx} (h : Balanced Q c) {e : Event} (he : e.isNeutral) :
    Balanced Q (c.logged e) := h.neutral rfl rfl rfl rfl (.snoc he)

theorem Balanced.resets {c c' : Ctx} (h : Balanced Q c) (hr : c.Resets c') : Balanced Q c' := by
  rcases hr with rfl | rfl
  · exact h
  · exact h.logged (e := .wrote c.resetFrame) nofun

theorem Balanced.calledBack {c : Ctx} (h : Balanced Q c) : ∀ {callback}, Balanced Q (c.calledBack callback)
  | none => h
  | some _ => h.logged trivial

theorem Balanced.takes {c : Ctx} (h : Balanced Q c) {chunk : Bytes} {callback : Option Nat}
    {point : YieldPoint} {amount taken : Int}
    (howner : c.self.writeLock.owner = .writer (.chunk chunk callback) point)
    (hwants : c.Wants chunk point amount) (hsize : 0 < c.conn.window.size)
    (htaken : taken = if c.conn.window.size < amount then c.conn.window.size else amount) :
    Balanced Q (((c.parentDebited taken).logged (.consumed none c.self.streamId amount taken)).withOwner
      (.writer (.chunk chunk callback) (.parent taken))) := by
  obtain ⟨hpos, hchunk, hwindow⟩ := h.wants howner hwants
  obtain ⟨hown, hparent⟩ := pieces_nonneg h.1.2
  have hbounds : 1 ≤ taken ∧ taken ≤ amount ∧ taken ≤ c.conn.window.size := by
    split at htaken <;> omega
  refine ⟨⟨?_, hbounds.1, hbounds.2.1.trans hchunk, hbounds.2.1.trans hwindow⟩,
    TracksCredit.takes h.2 hbounds.2.2⟩
  have haccounts := (h.1.1.weaken hown hparent).takes (c.withOwner
    (.writer (.chunk chunk callback) (.parent taken))).self rfl rfl ⟨hbounds.1, hbounds.2.1⟩
  rw [zero_add] at haccounts
  change Accounts _ (logOf c.self.streamId (c.conn.log ++ [_])) 0 taken
  rw [logOf_snoc]
  exacts [haccounts, rfl]

theorem Balanced.debits {c : Ctx} (h : Balanced Q c) {chunk : Bytes} {callback : Option Nat} {amount : Int}
    (howner : c.self.writeLock.owner = .writer (.chunk chunk callback) (.parent amount)) :
    Balanced Q (((c.debited amount).logged
      (.consumed (some c.self.streamId) c.self.streamId chunk.length amount)).withOwner
        (.writer (.chunk chunk callback) (.consume amount))) := by
  obtain ⟨haccounts, hfits⟩ := h.1
  rw [howner] at haccounts hfits
  obtain ⟨hpos, hchunk, hsize⟩ := hfits
  refine ⟨⟨?_, hpos, hchunk⟩, TracksCredit.unpaid h.2 rfl (.snoc ⟨rfl, rfl⟩)⟩
  · have hdebited := haccounts.debits ((c.debited amount).withOwner
      (.writer (.chunk chunk callback) (.consume amount))).self rfl rfl ⟨hpos, hchunk⟩ hsize
    rw [show ownPiece (.writer (.chunk chunk callback) (.parent amount)) = 0 from rfl, zero_add]
      at hdebited
    change Accounts _ (logOf c.self.streamId (c.conn.log ++ [_])) amount amount
    rw [logOf_snoc]
    exacts [hdebited, rfl]

theorem Balanced.writes {c : Ctx} (h : Balanced Q c) {chunk : Bytes} {callback : Option Nat} {amount : Int}
    (howner : c.self.writeLock.owner = .writer (.chunk chunk callback) (.consume amount)) :
    Balanced Q ((c.logged (.wrote (c.pieceFrame (chunk.take amount.toNat)))).withOwner
      (.writer (.chunk (chunk.drop amount.toNat) callback) .flush)) := by
  obtain ⟨haccounts, hfits⟩ := h.1
  rw [howner] at haccounts hfits
  obtain ⟨hpos, hchunk⟩ := hfits
  refine ⟨⟨?_, trivial⟩, TracksCredit.unpaid h.2 rfl (.snoc ⟨rfl, rfl⟩)⟩
  · have hlength : ((chunk.take amount.toNat).length : Int) = amount := by
      rw [List.length_take]
      omega
    have hwritten := haccounts.writes (c.withOwner
      (.writer (.chunk (chunk.drop amount.toNat) callback) .flush)).self
        (c.pieceFrame (chunk.take amount.toNat)) rfl rfl rfl hlength
    rw [show ownPiece (.writer (.chunk chunk callback) (.consume amount)) = amount from rfl,
      show parentPiece (.writer (.chunk chunk callback) (.consume amount)) = amount from rfl,
      sub_self] at hwritten
    change Accounts _ (logOf c.self.streamId (c.conn.log ++ [_])) 0 0
    rw [logOf_snoc]
    exacts [hwritten, rfl]

theorem Balanced.slice {c c' : Ctx} (h : Balanced Q c) (hs : Slice c c') : Balanced Q c' := by
  cases hs with
  | idle => exact h
  | failed _ hr => exact (h.withOwner .lost rfl rfl trivial).resets hr
  | finished => exact h.released.calledBack
  | waits => exact h.withOwner _ rfl rfl trivial
  | waitsParent howner hwants => exact h.withOwner _ rfl rfl (h.wants howner hwants)
  | takes howner hwants hsize htaken => exact h.takes howner hwants hsize htaken
  | debits howner => exact h.debits howner
  | writes howner => exact h.writes howner
  | ends => exact (h.logged (e := .wrote c.endStreamFrame) fun _ => rfl).released
  | aborts _ hr => exact (h.resets hr).released

theorem Balanced.acquires {c c' : Ctx} (h : Balanced Q c) {job : Job} (ha : Acquires c job c') :
    Balanced Q c' := by
  cases ha with
  | granted _ hs =>
    have hlock : Balanced Q (c.withOwner (.writer job .lock)) := by
      cases job <;> exact h.withOwner _ rfl rfl trivial
    exact hlock.slice hs
  | queued => exact h.neutral rfl rfl rfl rfl .refl

theorem Balanced.call {c c' : Ctx} (h : Balanced Q c) {chunk : Bytes} {callback : Option Nat}
    (hw : Writes c chunk callback c') : Balanced Q c' := by
  have hcounted : Balanced Q (c.counted chunk) := h.neutral rfl rfl rfl rfl .refl
  cases hw with
  | rejected _ _ _ hr => exact hcounted.resets hr
  | empty => exact (h.logged (e := .accepted ..) trivial).calledBack
  | accepted _ _ ha => exact (hcounted.logged (e := .accepted ..) trivial).acquires ha

theorem Balanced.issued {c : Ctx} (h : Balanced Q c) {call : Call} : Balanced Q (c.issued call) :=
  h.logged (e := .issued ..) trivial

theorem Balanced.prepared {c c' : Ctx} (h : Balanced Q c) (hp : Prepared c c') : Balanced Q c' := by
  cases hp with
  | undeclared => exact h.neutral rfl rfl rfl rfl .refl
  | declared => exact h.neutral rfl rfl rfl rfl (.snoc (e := .declared ..) trivial)

theorem writeHeaders_balanced {c : Ctx} (h : Balanced Q c) {startLine : StartLine Bytes} {headers : HTTPHeaders Bytes}
    {chunk : Bytes} {callback : Option Nat} :
    Balanced Q ((Stream.writeHeaders startLine headers chunk callback).run c).2 := by
  refine wp_state.mp (wp_mono Stream.writeHeaders_wp ?_ ?_) <;> intro _ c' hc' <;> cases hc' with
  | failed hp hr => exact (h.issued.prepared hp).resets hr
  | written hheads hr =>
    obtain @⟨data, _, _, _, hp, _, hw⟩ := hheads
    have hheaders := (h.issued.prepared hp).logged (e := .wrote (c.headersFrame data)) nofun
    exact (hheaders.call hw).resets hr

theorem write_balanced {c : Ctx} (h : Balanced Q c) {chunk : Bytes} {callback : Option Nat} :
    Balanced Q ((Stream.write chunk callback).run c).2 :=
  wp_state.mp (wp_mono Stream.write_wp (fun _ _ hw => h.call hw) fun _ _ hw => h.call hw)

theorem finish_balanced {c : Ctx} (h : Balanced Q c) : Balanced Q (Stream.finish.run c).2 := by
  refine wp_state.mp (wp_mono Stream.finish_wp ?_ ?_) <;> intro _ c' hc' <;> cases hc' with
  | short _ _ hr => exact h.issued.resets hr
  | ends _ ha => exact h.issued.acquires ha

theorem ReceivesOnly.balanced {i : Nat} {c c' : Ctx} (h : ReceivesOnly i c c') (hc : Balanced Q c) :
    Balanced Q c' := by
  have hself : c'.self.sending = c.self.sending := h.self
  simp only [Stream.sending, Prod.mk.injEq] at hself
  have hconn : c'.conn.sending = c.conn.sending := h.conn
  simp only [Conn.sending, Prod.mk.injEq] at hconn
  exact hc.neutral hself.1 (by rw [hself.2.2.1]) hself.2.2.2.2 hconn.2.2.2.2.2.1
    (h.log.mono fun _ he => he.isNeutral)

theorem reset_balanced {c : Ctx} (h : Balanced Q c) : Balanced Q (Stream.reset.run c).2 :=
  wp_state.mp (Stream.reset_wp (fun _ => h) (h.resets (.inr rfl)))

theorem resume_balanced {c : Ctx} (h : Balanced Q c) {flushed : Bool} :
    Balanced Q ((Stream.resume flushed).run c).2 :=
  wp_state.mp (wp_mono (E := fun _ => Balanced Q) Stream.resume_wp (fun _ _ hs => h.slice hs) fun _ _ h => h)

theorem method_balanced {c : Ctx} (h : Balanced Q c) {a : System.Action} {i : Nat} {m : OnStream Unit}
    (ha : a.method = some (i, m)) : Balanced Q (m.run c).2 :=
  Stream.method_preserves (fun _ _ hc hr => hr.balanced hc)
    (fun _ _ _ _ _ hc => writeHeaders_balanced hc)
    (fun _ _ _ hc => write_balanced hc) (fun _ hc => finish_balanced hc) (fun _ hc => reset_balanced hc)
    (fun _ _ hc => resume_balanced hc) ha h

/-! WINDOW_UPDATE frames. -/

/-- The increment does not take the window past its limit. -/
def Window.accepts (w : Window) (frame : Frame) : Prop :=
  ∀ n ∈ (unpackWord frame.data).toOption, w.size + (n &&& 0x7fffffff : Nat) ≤ maxWindowSize

theorem applyWindowUpdate_wp {w : Window} {frame : Frame} :
    wp (Window.applyWindowUpdate frame)
      (fun amount w' => w' = { w with size := w.size + amount, notified := w.notified + 1 })
      (fun _ w' => w.accepts frame → w' = w) w := by
  rw [Window.applyWindowUpdate]
  rcases hword : unpackWord frame.data with _ | n
  · exact fun _ => rfl
  · have raises {α : Type} {w : Window} {code : ErrorCode} {message : String}
        {Q : α → Window → Prop} {E : PyException → Window → Prop} (hE : ∀ e, E e w) :
        wp (Window.raiseError code message) Q E w := by
      rw [Window.raiseError, wp_bind, wp_get]
      cases w.streamId <;> exact hE _
    simp only [wp_bind, wp_when]
    refine ⟨fun _ => raises fun _ _ => rfl, fun _ => ?_⟩
    simp only [Window.adjust, wp_bind, wp_modify, wp_get, wp_when]
    refine ⟨fun hover => raises fun _ haccepts => ?_, fun _ => rfl⟩
    have := haccepts n (by rw [hword]; rfl)
    omega

theorem handleWindowUpdateFrame_balanced {c : Ctx} (h : Balanced Q c) {frame : Frame}
    (haccepts : c.self.window.accepts frame) :
    Balanced Q ((Stream.handleWindowUpdateFrame frame).run c).2 := by
  refine wp_state.mp ?_
  simp only [Stream.handleWindowUpdateFrame, wp_bind, wp_get, wp_zoom]
  refine wp_mono applyWindowUpdate_wp ?_ ?_
  · rintro amount _ rfl
    refine ⟨⟨?_, ?_⟩, TracksCredit.unpaid h.2 rfl (.snoc ⟨rfl, rfl⟩)⟩
    · change Accounts _ (logOf c.self.streamId (c.conn.log ++ [.credited (some c.self.streamId) amount]))
        (ownPiece c.self.writeLock.owner) (parentPiece c.self.writeLock.owner)
      rw [logOf_snoc]
      · exact h.1.1.credits { c.self with window := { c.self.window with
          size := c.self.window.size + amount, notified := c.self.window.notified + 1 } } rfl rfl
      · rfl
    · have hfits := h.1.2
      change PieceFits c.self.writeLock.owner (c.self.window.size + amount)
      generalize c.self.writeLock.owner = owner at hfits ⊢
      rcases owner with _ | ⟨_ | _, _ | _ | _ | _ | _ | _⟩ | _ <;>
        simp only [PieceFits] at hfits ⊢ <;> omega
  · rintro _ _ hw
    rw [hw haccepts]
    exact h

theorem handleFrame_balanced {c : Ctx} (h : Balanced Q c) {frame : Frame} {later : Bool}
    (haccepts : frame.type = .windowUpdate → c.self.window.accepts frame) :
    Balanced Q ((Stream.handleFrame frame later).run c).2 := by
  by_cases htype : frame.type = .windowUpdate
  · rw [Stream.handleFrame_windowUpdate htype]
    exact handleWindowUpdateFrame_balanced h (haccepts htype)
  · exact Stream.handleFrame_preserves (fun _ _ hc hr => hr.balanced hc) (fun _ hc => writeHeaders_balanced hc)
      (fun _ hc => finish_balanced hc) (fun h => absurd h htype) h

end

theorem connHandleFrame_balanced {c : Conn} (h : ConnBalanced c) {frame : Frame}
    (haccepts : frame.type = .windowUpdate → c.window.accepts frame) :
    ConnBalanced ((Conn.handleFrame frame).run c).2 := by
  by_cases htype : frame.type = .windowUpdate
  · rw [Conn.handleFrame, htype]
    refine wp_state.mp ?_
    simp only [Conn.handleWindowUpdateFrame, wp_bind, wp_zoom]
    refine wp_mono applyWindowUpdate_wp ?_ ?_
    · rintro amount _ rfl
      obtain ⟨hsize, hnonneg⟩ := h
      refine ⟨?_, add_nonneg hnonneg (Int.natCast_nonneg amount)⟩
      change c.window.size + amount = _ + total _ (c.log ++ [.credited none amount]) -
        total _ (c.log ++ [.credited none amount])
      simp only [total_append, total_singleton, Event.credit, Event.debit, hsize, if_true]
      omega
    · rintro _ _ hw
      rw [hw (haccepts htype)]
      exact h
  · have hkeeps : Keeps ConnBalanced Anything (Conn.handleFrame frame) := by
      refine Conn.handleFrame_keeps (fun c f _ hreply _ hc => ⟨TracksCredit.neutral hc rfl (.snoc ?_), trivial⟩)
        (fun _ _ _ hc _ => ⟨hc, trivial⟩) (fun _ hc => ⟨hc, trivial⟩) fun hupdate => absurd hupdate htype
      intro hdata
      rcases hreply with hreply | hreply <;> cases hreply.symm.trans hdata
    exact (hkeeps c h).1

/-! The invariant of a run. -/

/-- No WINDOW_UPDATE frame takes the window of a stream past its limit. -/
def AcceptsStreamUpdates (s : System) : System.Action → Prop
  | .receive frame _ => s.Reads frame → frame.type = .windowUpdate →
      ∀ self ∈ s.streams frame.streamId, self.window.accepts frame
  | _ => True

/-- No WINDOW_UPDATE frame takes the window of the connection past its limit. -/
def AcceptsConnUpdates (s : System) : System.Action → Prop
  | .receive frame _ => s.Reads frame → frame.type = .windowUpdate → frame.streamId = 0 →
      s.conn.window.accepts frame
  | _ => True

/-- Every WINDOW_UPDATE frame is one that its window accepts. -/
def AcceptsUpdates (s : System) (a : System.Action) : Prop :=
  AcceptsStreamUpdates s a ∧ AcceptsConnUpdates s a

instance (w : Window) (frame : Frame) : Decidable (w.accepts frame) :=
  inferInstanceAs (Decidable (∀ n ∈ (unpackWord frame.data).toOption, _))

instance (s : System) : (a : System.Action) → Decidable (AcceptsUpdates s a)
  | .receive frame _ => @instDecidableAnd _ _
      (inferInstanceAs (Decidable (s.Reads frame → frame.type = .windowUpdate → _)))
      (inferInstanceAs (Decidable (s.Reads frame → frame.type = .windowUpdate → frame.streamId = 0 → _)))
  | .createStream | .upgrade .. | .writeHeaders .. | .write .. | .finish .. | .reset .. | .resume ..
  | .resolve .. | .goawayFlushed | .disconnect => isTrue ⟨trivial, trivial⟩

theorem stable_balanced {Q : Conn → Prop} [TracksCredit Q] : Stable StreamBalanced Q where
  quiet := by
    rintro c _ ⟨es, _, _, rfl, hes⟩ h
    refine TracksCredit.unpaid h rfl ⟨es, rfl, fun e he => ?_⟩
    rcases hes e he with hnoise | ⟨i, size, rfl⟩
    · exact ⟨hnoise.isNeutral.credit, hnoise.isNeutral.debit⟩
    · exact ⟨rfl, rfl⟩
  noise he h := ⟨h.1.neutral rfl rfl fun e' he' => List.mem_singleton.mp he' ▸ he.isNeutral, h.2⟩
  new := by
    intro c i hasDelegate log requestStartLine _ hlog
    have hneutral (e : Event) (he : e ∈ log) : e.isNeutral := (hlog e he).isNeutral
    have hcredit : total (Event.credit (some i)) log = 0 :=
      total_eq_zero fun e he => (hneutral e he).credit
    have hdebit (w : Option Nat) : total (Event.debit w) log = 0 :=
      total_eq_zero fun e he => (hneutral e he).debit
    have hinitial : total Event.initialSize log = 0 :=
      total_eq_zero fun e he => (hneutral e he).initialSize
    have hdata : total Event.dataBytes log = 0 := total_eq_zero fun e he => (hneutral e he).dataBytes
    refine ⟨⟨?_, Int.natCast_nonneg _, fun e he => ?_, ?_, ?_⟩, trivial⟩
    · simp [Stream.new, Window.new, hcredit, hdebit, hinitial, Event.initialSize, Event.credit, Event.debit]
    · exact (List.mem_append.mp he).elim (fun he => (hneutral e he).fair) fun he =>
        List.mem_singleton.mp he ▸ trivial
    · simp [Stream.new, hdebit, hdata, Event.dataBytes, Event.debit, ownPiece]
    · simp [Stream.new, hdebit, hdata, Event.dataBytes, Event.debit, parentPiece]

/-- The invariant: well-formed, with every window in balance. -/
structure FlowInvariant (Q : Conn → Prop) (s : System) : Prop where
  wellFormed : s.WellFormed
  streams : s.All StreamBalanced
  conn : Q s.conn

namespace FlowInvariant

variable {Q : Conn → Prop} {s : System}

theorem start {isClient : Bool} {params : Params} (h : Q (System.start isClient params).conn) :
    FlowInvariant Q (System.start isClient params) where
  wellFormed := .start isClient params
  streams := by simp [System.All, System.start]
  conn := h

theorem step [TracksCredit Q] (h : FlowInvariant Q s) {a : System.Action} (ha : AcceptsStreamUpdates s a)
    (hconn : ∀ frame later c, a = .receive frame later → s.Reads frame → frame.streamId = 0 →
      Quiet s.conn c → Q c → Q ((Conn.handleFrame frame).run c).2) : FlowInvariant Q (s.step a) := by
  have hstep := System.All.step (a := a) stable_balanced h.wellFormed h.streams h.conn hconn ?_ ?_
  · exact ⟨h.wellFormed.step a, hstep.1, hstep.2⟩
  · rintro frame later c rfl hreads _ hmeets _ hc
    refine handleFrame_balanced hc fun htype => ?_
    cases hmeets with
    | known hself => exact ha hreads htype _ hself
    | opened _ hheaders => simp [htype] at hheaders
  · intro i m self ha _ _ hc
    exact method_balanced hc ha

theorem run {isClient : Bool} {params : Params} {actions : List System.Action}
    (h : Runs.Along System.step AcceptsUpdates (System.start isClient params) actions) :
    FlowInvariant ConnBalanced ((System.start isClient params).run actions) := by
  refine Runs.invariant (fun s a hs ha => hs.step ha.1 ?_)
    (.start ⟨rfl, Int.natCast_nonneg 65535⟩) h
  rintro frame later c rfl hreads hid ⟨_, _, _, rfl, -⟩ hc
  exact connHandleFrame_balanced hc fun htype => ha.2 hreads htype hid

end FlowInvariant

/-- What the books say about the events of any one stream. -/
theorem FlowInvariant.logOf {Q : Conn → Prop} {s : System} (h : FlowInvariant Q s) (i : Nat) :
    total Event.dataBytes (logOf i s.conn.log) ≤ total (Event.debit none) (logOf i s.conn.log) ∧
      ∀ e ∈ logOf i s.conn.log, e.fair := by
  have idle (hidle : ∀ e ∈ TornadoHttp2.logOf i s.conn.log,
      e.dataBytes = 0 ∧ e.debit none = 0 ∧ e.fair) :
      total Event.dataBytes (TornadoHttp2.logOf i s.conn.log) ≤
        total (Event.debit none) (TornadoHttp2.logOf i s.conn.log) ∧
      ∀ e ∈ TornadoHttp2.logOf i s.conn.log, e.fair := by
    rw [total_eq_zero fun e he => (hidle e he).1, total_eq_zero fun e he => (hidle e he).2.1]
    exact ⟨le_rfl, fun e he => (hidle e he).2.2⟩
  by_cases hi : i = 0
  · refine idle fun e he => ?_
    have hconn := h.wellFormed.ofConn e (mem_logOf.mp he).1 ((mem_logOf.mp he).2.trans hi)
    cases e with
    | wrote frame => exact ⟨if_neg hconn.2, rfl, trivial⟩
    | received | decoded | credited => exact ⟨rfl, rfl, trivial⟩
    | _ => exact hconn.elim
  · cases hself : s.streams i with
    | none =>
      refine idle fun e he => ?_
      have hneutral := (h.wellFormed.absent hi hself e (mem_logOf.mp he).1 (mem_logOf.mp he).2).isNeutral
      exact ⟨hneutral.dataBytes, hneutral.debit, hneutral.fair⟩
    | some self =>
      obtain ⟨haccounts, hfits⟩ := h.streams hself
      have hpiece := (pieces_nonneg hfits).2
      have hdata := haccounts.parentData
      exact ⟨by omega, haccounts.fair⟩

/-- Send-side flow control is safe. -/
theorem flow_control_safe {isClient : Bool} {params : Params} {actions : List System.Action}
    (h : Runs.Along System.step AcceptsUpdates (System.start isClient params) actions) :
    let s := (System.start isClient params).run actions
    let credit (window : Option Nat) := total (Event.credit window) s.conn.log
    let debit (window : Option Nat) := total (Event.debit window) s.conn.log
    let initialSize (i : Nat) := total Event.initialSize (logOf i s.conn.log)
    (∀ i self, s.streams i = some self →
      self.window.size = initialSize i + credit (some i) - debit (some i) ∧ 0 ≤ self.window.size ∧
        total Event.dataBytes (logOf i s.conn.log) ≤ initialSize i + credit (some i)) ∧
    s.conn.window.size = 65535 + credit none - debit none ∧ 0 ≤ s.conn.window.size ∧
    total Event.dataBytes s.conn.log ≤ 65535 + credit none ∧
    ∀ window i asked taken, .consumed window i asked taken ∈ s.conn.log → 1 ≤ taken ∧ taken ≤ asked := by
  intro s credit debit initialSize
  have hinv : FlowInvariant ConnBalanced s := .run h
  have hdata : total Event.dataBytes s.conn.log ≤ debit none :=
    total_le_of_logOf fun i => (hinv.logOf i).1
  refine ⟨fun i self hself => ?_, hinv.conn.1, hinv.conn.2, ?_, fun window i asked taken he => ?_⟩
  · obtain ⟨hsize, hnonneg, -, hpaid, -⟩ := (hinv.streams hself).1
    rw [hinv.wellFormed.streamId hself, total_credit_logOf, total_debit_logOf] at hsize
    rw [hinv.wellFormed.streamId hself, total_debit_logOf] at hpaid
    have hpiece := (pieces_nonneg (hinv.streams hself).2).1
    refine ⟨hsize, hnonneg, ?_⟩
    simp only [initialSize, credit]
    omega
  · have hsize : s.conn.window.size = 65535 + credit none - debit none := hinv.conn.1
    have hnonneg := hinv.conn.2
    omega
  · exact (hinv.logOf _).2 _ (mem_logOf.mpr ⟨he, rfl⟩)

/-- A response of five bytes, of which the first window lets three through. -/
theorem flow_control_safe_response :
    let s := (System.start false (.new none .caseless)).run
      [.receive ⟨.settings, 0, 0, [0, 4, 0, 0, 0, 3]⟩ false, .receive (System.requestFrame 1 0x5) false,
        .writeHeaders 1 (.response 200) .empty [1, 2, 3, 4, 5] none, .resume 1 true, .resume 1 true,
        .resume 1 true, .receive ⟨.windowUpdate, 0, 1, [0, 0, 0, 9]⟩ false, .resume 1 true,
        .resume 1 true, .resume 1 true]
    total Event.dataBytes s.conn.log = 5 ∧
      total Event.dataBytes s.conn.log ≤ 65535 + total (Event.credit none) s.conn.log := by
  refine ⟨by decide +kernel, ?_⟩
  exact (flow_control_safe (by decide +kernel)).2.2.2.1

end TornadoHttp2
