import Mathlib.Data.List.Nodup
import Mathlib.Logic.Function.Basic
import MultiDevice.Proofs.Messenger.Sealing

/-!
# Devices that write to each other

Any number of devices encrypt and read. Whoever controls the network decides what arrives, and some
of the devices do more than a messenger would: they encrypt on their own what they like, and tell
others the content keys that they were given. Of the cipher it is assumed that what is opened in the
run was encrypted in it under the same key and with the same data, and that those who use a content
key are its sender and those who were given it.

## Main definitions

* `Circle`, `Circle.Event`, `Circle.run`: the devices, what they encrypted, unwrapped and passed on,
  and what happens to them
* `Circle.Unforged`: nothing that was opened was forged
* `Circle.OnlyHolders`: only those who were given a content key use it
* `Circle.Privy`: the devices that a content key reached from its sender

## Main results

* `Circle.extends_run`: nothing that is recorded is forgotten
* `Circle.scene_run`, `Circle.keysOf_run`: what becomes of a device, and the content keys that it
  uses, are decided by the requests to it
-/

namespace MultiDevice

/-- An envelope that a device made, with its content key, and the device afterwards. -/
structure Posted extends Authored where
  /-- The device after it. -/
  after : Scene

/-- The identity is that of the sender, or the one that the sender has on record for the
recipient. -/
def Posted.Meant [CipherSuite] (x : Posted) (recipient : DeviceAddress) (identity : PublicKey) :
    Prop :=
  identity = x.after.messenger.store.identity.publicKey ∨
    ∃ known, (x.after.trust.record recipient).identity = some known ∧ known.SamePoint identity

/-- A content key that one device told another one. -/
structure Told (ι : Type) where
  /-- The device that told it. -/
  teller : ι
  /-- The device that was told. -/
  listener : ι
  /-- The content key. -/
  key : ContentKey

/-- Devices that write to each other, and a record of what they did. -/
structure Circle (ι : Type) where
  /-- Each device with what surrounds it. -/
  scene : ι → Scene
  /-- What the devices encrypted. -/
  sealed : List (ι × Sealed)
  /-- The content keys that they unwrapped. -/
  opened : List (ι × Opened)
  /-- The content keys that they told each other. -/
  told : List (Told ι)
  /-- The envelopes that they made. -/
  posted : List (ι × Posted)

namespace Circle

variable {ι : Type} {c d : Circle ι} {i : ι} {key : ContentKey}

/-- What happens to devices that write to each other. -/
inductive Event (ι : Type) where
  /-- A messenger is asked for something. Any envelope may be handed to it. -/
  | asks (device : ι) (request : Request)
  /-- A device encrypts something on its own. -/
  | seals (device : ι) (key : Block 32) (nonce : Block 12) (data plaintext : Bytes)
  /-- A device tells another one a content key. -/
  | tells (device other : ι) (key : ContentKey)

/-- The devices were just set up, and nothing has happened. -/
structure SetUp (c : Circle ι) : Prop where
  provisioned : ∀ i, Provisioned (c.scene i)
  sealed : c.sealed = []
  opened : c.opened = []
  told : c.told = []
  posted : c.posted = []

/-- A device was given a content key: it unwrapped it, or was told. -/
def Given (c : Circle ι) (i : ι) (key : ContentKey) : Prop :=
  (∃ p ∈ c.opened, p.1 = i ∧ p.2.key = key) ∨ ∃ p ∈ c.told, p.listener = i ∧ p.key = key

/-- Nothing that is recorded is forgotten. -/
structure Extends (c d : Circle ι) : Prop where
  sealed : c.sealed ⊆ d.sealed
  opened : c.opened ⊆ d.opened
  told : c.told ⊆ d.told
  posted : c.posted ⊆ d.posted

protected theorem Extends.refl (c : Circle ι) : c.Extends c :=
  ⟨List.Subset.refl _, List.Subset.refl _, List.Subset.refl _, List.Subset.refl _⟩

theorem Extends.trans {e : Circle ι} (h : c.Extends d) (h' : d.Extends e) : c.Extends e :=
  ⟨List.Subset.trans h.sealed h'.sealed, List.Subset.trans h.opened h'.opened,
    List.Subset.trans h.told h'.told, List.Subset.trans h.posted h'.posted⟩

theorem Given.mono (h : c.Given i key) (hd : c.Extends d) : d.Given i key := by
  rcases h with ⟨p, hp, hgiven⟩ | ⟨p, hp, hgiven⟩
  · exact .inl ⟨p, hd.opened hp, hgiven⟩
  · exact .inr ⟨p, hd.told hp, hgiven⟩

/-- An encryption under a content key is the payload that the messenger of the sender made, or was
made by a device on its own that was given the key before. An encryption of the content key itself
is a transport that the messenger of the sender made, or was made by a device that was given the key
before. -/
structure Rightful (c : Circle ι) (sender : ι) (key : ContentKey) (i : ι) (y : Sealed) : Prop where
  under : y.key = key.bytes → i = sender ∧ y.purpose = .payload ∨ y.purpose = .own ∧ c.Given i key
  inside : y.plaintext = key.bytes.toList → i = sender ∧ y.purpose = .transport ∨ c.Given i key

theorem Rightful.mono {sender : ι} {y : Sealed} (h : c.Rightful sender key i y)
    (hd : c.Extends d) : d.Rightful sender key i y where
  under hkey := (h.under hkey).imp_right fun hown => ⟨hown.1, hown.2.mono hd⟩
  inside hplaintext := (h.inside hplaintext).imp_right fun hgiven => hgiven.mono hd

/-! ## Who a content key reaches -/

section Reach

variable [CipherSuite]

/-- The devices that the content key of an envelope reached from its sender: those that unwrapped
what was made for a recipient, under an identity that the sender meant, and those that one of them
gave it to, by encrypting it for them or by telling it. -/
inductive Privy (c : Circle ι) (x : Posted) : ι → Prop where
  /-- The device unwrapped the content key from a transport of the envelope. -/
  | recipient {i : ι} {o : Opened} {k : RecipientKey} (hopened : (i, o) ∈ c.opened)
      (hkey : o.key = x.key) (hk : k ∈ x.envelope.keys) (hmessage : o.message = k.transport.message)
      (hmeant : x.Meant k.recipient o.identity) : Privy c x i
  /-- The device unwrapped the content key from what another one made. -/
  | handed {i j : ι} {o : Opened} {y : Sealed} (hprivy : Privy c x j) (hsealed : (j, y) ∈ c.sealed)
      (hplaintext : y.plaintext = x.key.bytes.toList) (hopened : (i, o) ∈ c.opened)
      (hkey : o.key = x.key) (htext : o.message.ciphertext = y.text) : Privy c x i
  /-- The device was told the content key. -/
  | told {i j : ι} (hprivy : Privy c x j)
      (htold : { teller := j, listener := i, key := x.key } ∈ c.told) : Privy c x i

theorem Privy.mono {x : Posted} (h : c.Privy x i) (hd : c.Extends d) : d.Privy x i := by
  induction h with
  | recipient hopened hkey hk hmessage hmeant =>
    exact .recipient (hd.opened hopened) hkey hk hmessage hmeant
  | handed _ hsealed hplaintext hopened hkey htext ih =>
    exact .handed ih (hd.sealed hsealed) hplaintext (hd.opened hopened) hkey htext
  | told _ htold ih => exact .told ih (hd.told htold)

end Reach

variable [DecidableEq ι]

/-! ## Runs -/

instance (c : Circle ι) (i : ι) (key : ContentKey) : Decidable (c.Given i key) :=
  inferInstanceAs (Decidable (_ ∨ _))

/-- What an event asks of one of the devices. -/
def Event.requestTo? (i : ι) : Event ι → Option Request
  | .asks j request => if j = i then some request else none
  | _ => none

/-- The requests to one of the devices. -/
def requestsTo (i : ι) (events : List (Event ι)) : List Request :=
  events.filterMap fun event => event.requestTo? i

/-- The content keys of the envelopes that a device made. -/
def keysOf (c : Circle ι) (i : ι) : List ContentKey :=
  (c.posted.filter fun p => p.1 = i).map fun p => p.2.key

/-- A content key tells the envelope that a device made. -/
theorem eq_of_keysOf_nodup (h : (c.keysOf i).Nodup) {x y : Posted}
    (hx : (i, x) ∈ c.posted) (hy : (i, y) ∈ c.posted) (hkey : x.key = y.key) : x = y := by
  have hmem : ∀ {z : Posted}, (i, z) ∈ c.posted → (i, z) ∈ c.posted.filter fun p => p.1 = i :=
    fun hz => List.mem_filter.mpr ⟨hz, decide_eq_true rfl⟩
  exact (Prod.mk.inj (List.inj_on_of_nodup_map h (hmem hx) (hmem hy) hkey)).2

variable [CipherSuite]

/-- What is encrypted in an event, and by whom. -/
def sealedIn (c : Circle ι) : Event ι → List (ι × Sealed)
  | .asks i request => (request.sealed (c.scene i)).map (i, ·)
  | .seals i key nonce data plaintext => [(i, { purpose := .own, key, nonce, data, plaintext })]
  | .tells .. => []

/-- The content key that is unwrapped in an event, and by whom. -/
def openedIn (c : Circle ι) : Event ι → List (ι × Opened)
  | .asks i request => (request.opened? (c.scene i)).toList.map (i, ·)
  | _ => []

/-- The content key that is told in an event. -/
def toldIn : Event ι → List (Told ι)
  | .tells i j key => [{ teller := i, listener := j, key }]
  | _ => []

/-- The envelope that is made in an event, and by whom. -/
def postedIn (c : Circle ι) : Event ι → List (ι × Posted)
  | .asks i request =>
    (request.authored? (c.scene i)).toList.map
      (i, { · with after := request.perform (c.scene i) })
  | _ => []

/-- The devices after an event. -/
def sceneAfter (c : Circle ι) : Event ι → ι → Scene
  | .asks i request => Function.update c.scene i (request.perform (c.scene i))
  | _ => c.scene

/-- What is recorded after an event. -/
def step (c : Circle ι) (event : Event ι) : Circle ι where
  scene := c.sceneAfter event
  sealed := c.sealed ++ c.sealedIn event
  opened := c.opened ++ c.openedIn event
  told := c.told ++ toldIn event
  posted := c.posted ++ c.postedIn event

/-- What is recorded after several events. -/
def run (c : Circle ι) (events : List (Event ι)) : Circle ι := events.foldl step c

@[simp] theorem run_nil (c : Circle ι) : c.run [] = c := rfl

@[simp] theorem run_cons (c : Circle ι) (event : Event ι) (events : List (Event ι)) :
    c.run (event :: events) = (c.step event).run events := rfl

theorem run_append (c : Circle ι) (front back : List (Event ι)) :
    c.run (front ++ back) = (c.run front).run back := List.foldl_append

/-! ## What is assumed -/

/-- What is opened in an event was encrypted before. -/
def UnforgedAt (c : Circle ι) : Event ι → Prop
  | .asks i request => ∀ o ∈ request.openings (c.scene i), o.Genuine (c.sealed.map Prod.snd)
  | _ => True

instance (c : Circle ι) (event : Event ι) : Decidable (c.UnforgedAt event) :=
  match event with
  | .asks i request => inferInstanceAs (Decidable (∀ o ∈ request.openings (c.scene i), _))
  | .seals .. => isTrue trivial
  | .tells .. => isTrue trivial

/-- Nothing that is opened in a run was forged. -/
def Unforged : Circle ι → List (Event ι) → Prop
  | _, [] => True
  | c, event :: events => c.UnforgedAt event ∧ (c.step event).Unforged events

instance (c : Circle ι) (events : List (Event ι)) : Decidable (c.Unforged events) :=
  match events with
  | [] => isTrue trivial
  | event :: events =>
    have := instDecidableUnforged (c.step event) events
    inferInstanceAs (Decidable (_ ∧ _))

theorem unforged_append {front back : List (Event ι)} :
    c.Unforged (front ++ back) ↔ c.Unforged front ∧ (c.run front).Unforged back := by
  induction front generalizing c with
  | nil => exact ⟨fun h => ⟨trivial, h⟩, And.right⟩
  | cons event front ih => exact (and_congr_right fun _ => ih).trans and_assoc.symm

instance (c : Circle ι) (sender : ι) (key : ContentKey) (i : ι) (y : Sealed) :
    Decidable (c.Rightful sender key i y) :=
  decidable_of_iff ((y.key = key.bytes →
      i = sender ∧ y.purpose = .payload ∨ y.purpose = .own ∧ c.Given i key) ∧
    (y.plaintext = key.bytes.toList → i = sender ∧ y.purpose = .transport ∨ c.Given i key))
    ⟨fun h => ⟨h.1, h.2⟩, fun h => ⟨h.under, h.inside⟩⟩

/-- Besides its sender, only those who were given a content key use it in an event, or pass it
on. -/
def OnlyHoldersAt (c : Circle ι) (sender : ι) (key : ContentKey) (event : Event ι) : Prop :=
  (∀ p ∈ c.sealedIn event, c.Rightful sender key p.1 p.2) ∧
    ∀ p ∈ toldIn event, p.key = key → c.Given p.teller key

instance (c : Circle ι) (sender : ι) (key : ContentKey) (event : Event ι) :
    Decidable (c.OnlyHoldersAt sender key event) :=
  inferInstanceAs (Decidable (_ ∧ _))

/-- Besides its sender, only those who were given a content key use it in a run. -/
def OnlyHolders (sender : ι) (key : ContentKey) : Circle ι → List (Event ι) → Prop
  | _, [] => True
  | c, event :: events =>
    c.OnlyHoldersAt sender key event ∧ (c.step event).OnlyHolders sender key events

instance (sender : ι) (key : ContentKey) (c : Circle ι) (events : List (Event ι)) :
    Decidable (OnlyHolders sender key c events) :=
  match events with
  | [] => isTrue trivial
  | event :: events =>
    have := instDecidableOnlyHolders sender key (c.step event) events
    inferInstanceAs (Decidable (_ ∧ _))

/-! ## What is recorded -/

theorem extends_step (c : Circle ι) (event : Event ι) : c.Extends (c.step event) :=
  ⟨List.subset_append_left _ _, List.subset_append_left _ _, List.subset_append_left _ _,
    List.subset_append_left _ _⟩

theorem extends_run (c : Circle ι) (events : List (Event ι)) : c.Extends (c.run events) := by
  induction events generalizing c with
  | nil => exact .refl c
  | cons event events ih => exact (c.extends_step event).trans (ih _)

theorem scene_step (c : Circle ι) (event : Event ι) (i : ι) :
    (c.step event).scene i = (c.scene i).run (event.requestTo? i).toList := by
  cases event with
  | asks j request =>
    by_cases hj : j = i
    · subst hj
      simp only [step, sceneAfter, Event.requestTo?, Function.update_self, if_true,
        Option.toList_some, Scene.run_cons, Scene.run_nil]
    · simp only [step, sceneAfter, Event.requestTo?, if_neg hj, Function.update_of_ne (Ne.symm hj),
        Option.toList_none, Scene.run_nil]
  | seals j key nonce data plaintext => rfl
  | tells j k key => rfl

/-- The requests to a device decide how it stands after a run. -/
theorem scene_run (c : Circle ι) (events : List (Event ι)) (i : ι) :
    (c.run events).scene i = (c.scene i).run (requestsTo i events) := by
  induction events generalizing c with
  | nil => rfl
  | cons event events ih =>
    rw [run_cons, ih, scene_step, ← Scene.run_append, requestsTo, requestsTo]
    cases h : event.requestTo? i with
    | none => rw [List.filterMap_cons_none h, Option.toList_none, List.nil_append]
    | some request => rw [List.filterMap_cons_some h, Option.toList_some, List.singleton_append]

theorem keysOf_step (c : Circle ι) (event : Event ι) (i : ι) :
    (c.step event).keysOf i =
      c.keysOf i ++ ((c.scene i).authored (event.requestTo? i).toList).map (·.key) := by
  cases event with
  | asks j request =>
    by_cases hj : j = i
    · subst hj
      cases h : request.authored? (c.scene j) <;>
        simp [keysOf, step, postedIn, Event.requestTo?, Scene.authored, h]
    · cases h : request.authored? (c.scene j) <;>
        simp [keysOf, step, postedIn, Event.requestTo?, Scene.authored, h, hj]
  | seals j key nonce data plaintext =>
    simp [keysOf, step, postedIn, Event.requestTo?, Scene.authored]
  | tells j k key => simp [keysOf, step, postedIn, Event.requestTo?, Scene.authored]

/-- They are those of the run that the requests to the device make. -/
theorem keysOf_run (c : Circle ι) (events : List (Event ι)) (i : ι) :
    (c.run events).keysOf i =
      c.keysOf i ++ ((c.scene i).authored (requestsTo i events)).map (·.key) := by
  induction events generalizing c with
  | nil => simp [requestsTo, Scene.authored]
  | cons event events ih =>
    rw [run_cons, ih, keysOf_step, scene_step, requestsTo, requestsTo]
    cases h : event.requestTo? i with
    | none => simp [Scene.authored, List.filterMap_cons_none h]
    | some request => simp [Scene.authored, List.filterMap_cons_some h]

end Circle

end MultiDevice
