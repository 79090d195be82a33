import Chip8.Display.Image
import Chip8.Proofs.Display.History
import Chip8.Proofs.Storage

/-!
# Images show the display block by block

With a scale, every pixel becomes a square block of `blockSide` pixels of the image, and every pixel
of the image is four bytes, the components of one of two colours (`ShowsBlocks`).  So with two
colours that differ in some component modulo 256, an image tells every pixel of the display
(`render_eq_iff`).

An image is stored whole or not at all.  The headline is `stored_blocks`; `storedBytes_refused` is a
scale at which nothing is stored.
-/

namespace Chip8

/-! ### Colours -/

/-- The components of a colour: red, green, blue and opacity. -/
def Colour.channel (c : Colour) : Fin 4 → Int
  | 0 => c.red
  | 1 => c.green
  | 2 => c.blue
  | 3 => c.opacity

/-- What stands in an image for a component of a colour is the component modulo 256. -/
theorem Colour.toNat_component (c : Colour) (k : Fin 4) :
    ((c.component k).toNat : Int) = c.channel k % 256 := by
  have hbyte (value : Int) : ((UInt8.ofInt value).toNat : Int) = value % 256 := by
    rw [Number.toNat_byte]
    omega
  match k with
  | 0 => exact hbyte c.red
  | 1 => exact hbyte c.green
  | 2 => exact hbyte c.blue
  | 3 => exact hbyte c.opacity

/-- The two colours differ in some component modulo 256. -/
def Palette.IsTwoTone (palette : Palette) : Prop :=
  ∃ k, palette.on.channel k % 256 ≠ palette.off.channel k % 256

namespace Display

/-! ### Blocks -/

/-- The bytes are an image of the display: every pixel is a square block of side `s` in one of two
colours, and the bytes are the components of the colours, row by row. -/
structure ShowsBlocks (d : Display) (s : Nat) (palette : Palette) (rgba : Array UInt8) : Prop where
  size_eq : rgba.size = 64 * s * (32 * s) * 4
  byte_eq : ∀ (x y : Nat) (k : Fin 4), x < 64 * s → y < 32 * s →
    rgba[(y * (64 * s) + x) * 4 + k.val]?.map (fun b => (b.toNat : Int)) =
      some ((if d.isSet (x / s : Nat) (y / s : Nat) then palette.on else palette.off).channel k
        % 256)

theorem blockSide_eq (scale : Rat) : (blockSide scale : Int) = max 1 scale.floor := by
  unfold blockSide
  omega

theorem blockSide_pos (scale : Rat) : 0 < blockSide scale := by
  unfold blockSide
  omega

/-- A block is as large as it would be at its own size. -/
theorem blockSide_blockSide (scale : Rat) :
    blockSide (blockSide scale : Nat) = blockSide scale := by
  have hpos := blockSide_pos scale
  conv_lhs => rw [blockSide, ← Rat.intCast_natCast, Rat.floor_intCast]
  omega

/-- The bytes of a pixel of the image, found by its column and row. -/
theorem imageByte_eq (d : Display) {s : Nat} (palette : Palette) {x : Nat} (hx : x < 64 * s)
    (y : Nat) (k : Fin 4) :
    d.imageByte s palette ((y * (64 * s) + x) * 4 + k.val) =
      (if d.isSet (x / s : Nat) (y / s : Nat) then palette.on else palette.off).component k := by
  have hpixel : ((y * (64 * s) + x) * 4 + k.val) / 4 = y * (64 * s) + x := by omega
  have hchannel : ((y * (64 * s) + x) * 4 + k.val) % 4 = k.val := by omega
  have hcolumn : (y * (64 * s) + x) % (64 * s) = x := Nat.mul_add_mod_of_lt hx
  have hrow : (y * (64 * s) + x) / (64 * s) = y := by
    rw [Nat.mul_comm y, Nat.mul_add_div (Nat.zero_lt_of_lt hx), Nat.div_eq_of_lt hx, Nat.add_zero]
  simp only [imageByte, hpixel, hchannel, hcolumn, hrow]

theorem place_lt {width height x y k : Nat} (hx : x < width) (hy : y < height) (hk : k < 4) :
    (y * width + x) * 4 + k < width * height * 4 := by
  have hpixel : width * y + x < height * width := Nat.mul_add_lt_mul_of_lt_of_lt hy hx
  rw [Nat.mul_comm y, Nat.mul_comm width height]
  omega

theorem showsBlocks_render (d : Display) (scale : Rat) (palette : Palette) :
    d.ShowsBlocks (blockSide scale) palette (d.render scale palette) where
  size_eq := Array.size_ofFn
  byte_eq x y k hx hy := by
    rw [render, Array.getElem?_ofFn, dif_pos (place_lt hx hy k.isLt), Option.map_some,
      imageByte_eq d palette hx, Colour.toNat_component]

/-- An image in two colours tells every pixel. -/
theorem render_eq_iff {palette : Palette} (h : palette.IsTwoTone) (scale : Rat) (d e : Display) :
    d.render scale palette = e.render scale palette ↔ d.pixels = e.pixels := by
  constructor
  · intro hrender
    obtain ⟨k, hk⟩ := h
    have hs := blockSide_pos scale
    apply pixels_eq_of_pixel
    funext x y
    -- the corner of the block of a pixel
    have hx : x.val * blockSide scale < 64 * blockSide scale :=
      Nat.mul_lt_mul_of_pos_right x.isLt hs
    have hy : y.val * blockSide scale < 32 * blockSide scale :=
      Nat.mul_lt_mul_of_pos_right y.isLt hs
    have hd := (d.showsBlocks_render scale palette).byte_eq _ _ k hx hy
    have he := (e.showsBlocks_render scale palette).byte_eq _ _ k hx hy
    rw [hrender, he, Nat.mul_div_cancel _ hs, Nat.mul_div_cancel _ hs, isSet_natCast, isSet_natCast,
      Option.some.injEq] at hd
    cases hdx : d.pixel x y with
    | false =>
      cases hex : e.pixel x y with
      | false => rfl
      | true =>
        rw [hdx, hex] at hd
        exact absurd hd hk
    | true =>
      cases hex : e.pixel x y with
      | false =>
        rw [hdx, hex] at hd
        exact absurd hd.symm hk
      | true => rfl
  · intro hpixels
    obtain ⟨pixels, version⟩ := d
    obtain ⟨pixels', version'⟩ := e
    cases hpixels
    rfl

/-! ### Stored images -/

theorem storedBytes_eq (d : Display) (host : Storage.Host) (scale : Rat) (palette : Palette) :
    d.storedBytes host scale palette =
      (Storage.reserve host
        (.nearest (64 * blockSide scale * (32 * blockSide scale) * 4 : Nat))).map
        fun _ => d.render scale palette :=
  rfl

theorem render_blockSide (d : Display) (scale : Rat) (palette : Palette) :
    d.render (blockSide scale : Nat) palette = d.render scale palette :=
  congrArg
    (fun s => Array.ofFn (n := width * s * (height * s) * 4) fun i => d.imageByte s palette i)
    (blockSide_blockSide scale)

/-- The bytes of an image are those that are stored with its scale. -/
theorem storedImage_eq (d : Display) (host : Storage.Host) (scale : Rat) (palette : Palette) :
    d.storedImage host scale palette =
      (d.storedBytes host scale palette).map
        (Image.mk (64 * blockSide scale) (32 * blockSide scale)) := by
  have hbytes : d.storedBytes host (blockSide scale : Nat) palette =
      d.storedBytes host scale palette := by
    rw [storedBytes_eq, storedBytes_eq, blockSide_blockSide, render_blockSide]
  rw [← hbytes]
  rfl

/-- With any scale and palette, what is rendered shows the display in blocks, and with two colours
it tells every pixel.  If the bytes can be counted and the host has room for them, they are stored,
by themselves and as an image with its width and height; if not, both are refused. -/
theorem stored_blocks (host : Storage.Host) (scale : Rat) (palette : Palette) :
    let s := blockSide scale
    let count := 64 * s * (32 * s) * 4
    (s : Int) = max 1 scale.floor ∧
      (∀ d : Display, d.ShowsBlocks s palette (d.render scale palette)) ∧
      (palette.IsTwoTone → ∀ d e : Display,
        d.render scale palette = e.render scale palette ↔ d.pixels = e.pixels) ∧
      (count ≤ Storage.countable → host.hasRoom count = true → ∀ d : Display,
        d.storedBytes host scale palette = .ok (d.render scale palette) ∧
        d.storedImage host scale palette = .ok ⟨64 * s, 32 * s, d.render scale palette⟩) ∧
      (Storage.countable < count ∨ host.hasRoom count = false → ∀ d : Display, ∃ text,
        d.storedBytes host scale palette = .error (.range text) ∧
        d.storedImage host scale palette = .error (.range text)) := by
  intro s count
  refine ⟨blockSide_eq scale, fun d => d.showsBlocks_render scale palette,
    fun h => render_eq_iff h scale, ?_, ?_⟩
  · intro hcount hroom d
    rw [storedImage_eq, storedBytes_eq, Storage.reserve_of_le host hcount, if_pos hroom]
    exact ⟨rfl, rfl⟩
  · intro hrefused d
    obtain ⟨text, htext⟩ := Storage.exists_reserve_eq_error host hrefused
    rw [storedImage_eq, storedBytes_eq, htext]
    exact ⟨text, rfl, rfl⟩

/-- Two colours that differ modulo 256 in their opacity only. -/
def faint : Palette := ⟨⟨300, -1, 0, 255⟩, ⟨44, 255, 512, 254⟩⟩

/-- With a scale of two and a half, blocks have side two, and of the blank display and one with a
sprite, different bytes are stored.  A host for 64 KiB has no room for blocks of side three, and with
a scale of `2 ^ 20` there would be `2 ^ 53` bytes. -/
theorem stored_blocks_halves :
    let host : Storage.Host := .upTo 0x10000
    64 * blockSide (5 / 2) * (32 * blockSide (5 / 2)) * 4 = 0x8000 ∧ faint.IsTwoTone ∧
      blank.pixels ≠ (blank.draw 0 0 [0x80]).1.pixels ∧
      blank.storedBytes host (5 / 2) faint ≠
        (blank.draw 0 0 [0x80]).1.storedBytes host (5 / 2) faint ∧
      (∃ text, blank.storedImage host 3 faint = .error (.range text)) ∧
      ∃ text, blank.storedImage host 1048576 faint = .error (.range text) := by
  intro host
  have hbytes : 64 * blockSide (5 / 2) * (32 * blockSide (5 / 2)) * 4 = 0x8000 := by
    decide +kernel
  have htwo : faint.IsTwoTone := ⟨3, by decide⟩
  have hpixels : blank.pixels ≠ (blank.draw 0 0 [0x80]).1.pixels := by
    intro h
    have hcorner : blank.pixel 0 0 = (blank.draw 0 0 [0x80]).1.pixel 0 0 :=
      congrArg (fun pixels : Vector Bool 2048 => pixels[0]) h
    exact absurd hcorner (by decide +kernel)
  obtain ⟨-, -, hrender, hstored, -⟩ := stored_blocks host (5 / 2) faint
  obtain ⟨-, -, -, -, hthree⟩ := stored_blocks host 3 faint
  obtain ⟨-, -, -, -, hrefused⟩ := stored_blocks host 1048576 faint
  refine ⟨hbytes, htwo, hpixels, ?_, ?_, ?_⟩
  · have hcount : 64 * blockSide (5 / 2) * (32 * blockSide (5 / 2)) * 4 ≤ Storage.countable :=
      hbytes ▸ by decide
    have hroom : host.hasRoom (64 * blockSide (5 / 2) * (32 * blockSide (5 / 2)) * 4) = true :=
      hbytes ▸ by decide
    rw [(hstored hcount hroom _).1, (hstored hcount hroom _).1, ne_eq, Except.ok.injEq,
      hrender htwo]
    exact hpixels
  · obtain ⟨text, -, himage⟩ := hthree (.inr (by decide +kernel)) blank
    exact ⟨text, himage⟩
  · obtain ⟨text, -, himage⟩ := hrefused (.inl (by decide +kernel)) blank
    exact ⟨text, himage⟩

/-- Not every scale gives an image, even on a host with room for every block: blocks of side
`2 ^ 20` have more bytes than can be counted. -/
theorem storedBytes_refused :
    ¬ ∃ rgba, blank.storedBytes ⟨fun _ => true⟩ 1048576 .standard = .ok rgba ∧
      rgba.size = 64 * 1048576 * (32 * 1048576) * 4 := by
  rintro ⟨rgba, hok, -⟩
  have hlarge : Storage.countable < 64 * blockSide 1048576 * (32 * blockSide 1048576) * 4 := by
    decide +kernel
  obtain ⟨text, htext⟩ := Storage.reserve_of_lt ⟨fun _ => true⟩ hlarge
  rw [storedBytes_eq, htext] at hok
  cases hok

end Display

end Chip8
