/-!
# State operations

Every state assignment names an operation by its place in one table. An entry says which family of
device calls the operation belongs to and, within the family, which state it sets.
-/

namespace ShaderEffect

/-- A family of device calls. -/
inductive StateClass where
  | renderState
  | textureStage
  | patchMode
  | vertexFormat
  | transform
  | material
  | light
  | lightEnable
  | vertexShader
  | pixelShader
  | shaderConstant
  | texture
  | samplerState
  | sampler
deriving DecidableEq, Inhabited

namespace StateClass

/-- All families, in the order of the table. -/
def all : List StateClass := [
  .renderState, .textureStage, .patchMode, .vertexFormat, .transform, .material, .light,
  .lightEnable, .vertexShader, .pixelShader, .shaderConstant, .texture, .samplerState, .sampler]

/-- The name of a family. -/
def name : StateClass → String
  | .renderState => "RenderState"
  | .textureStage => "TextureStage"
  | .patchMode => "NPatchMode"
  | .vertexFormat => "Fvf"
  | .transform => "Transform"
  | .material => "Material"
  | .light => "Light"
  | .lightEnable => "LightEnable"
  | .vertexShader => "VertexShader"
  | .pixelShader => "PixelShader"
  | .shaderConstant => "ShaderConst"
  | .texture => "Texture"
  | .samplerState => "SamplerState"
  | .sampler => "SetSampler"

/-- The family with the given name. -/
def ofName? (name : String) : Option StateClass := all.find? (·.name == name)

end StateClass

/-- A state operation. -/
structure StateInfo where
  cls : StateClass
  /-- Which state of the family is set: a device enumerant or a field selector. -/
  op : UInt32
  name : String
deriving DecidableEq

namespace StateTable

/-- Render states. -/
def renderStates : List StateInfo := [
  ⟨.renderState, 7, "ZENABLE"⟩,
  ⟨.renderState, 8, "FILLMODE"⟩,
  ⟨.renderState, 9, "SHADEMODE"⟩,
  ⟨.renderState, 14, "ZWRITEENABLE"⟩,
  ⟨.renderState, 15, "ALPHATESTENABLE"⟩,
  ⟨.renderState, 16, "LASTPIXEL"⟩,
  ⟨.renderState, 19, "SRCBLEND"⟩,
  ⟨.renderState, 20, "DESTBLEND"⟩,
  ⟨.renderState, 22, "CULLMODE"⟩,
  ⟨.renderState, 23, "ZFUNC"⟩,
  ⟨.renderState, 24, "ALPHAREF"⟩,
  ⟨.renderState, 25, "ALPHAFUNC"⟩,
  ⟨.renderState, 26, "DITHERENABLE"⟩,
  ⟨.renderState, 27, "ALPHABLENDENABLE"⟩,
  ⟨.renderState, 28, "FOGENABLE"⟩,
  ⟨.renderState, 29, "SPECULARENABLE"⟩,
  ⟨.renderState, 34, "FOGCOLOR"⟩,
  ⟨.renderState, 35, "FOGTABLEMODE"⟩,
  ⟨.renderState, 36, "FOGSTART"⟩,
  ⟨.renderState, 37, "FOGEND"⟩,
  ⟨.renderState, 38, "FOGDENSITY"⟩,
  ⟨.renderState, 48, "RANGEFOGENABLE"⟩,
  ⟨.renderState, 52, "STENCILENABLE"⟩,
  ⟨.renderState, 53, "STENCILFAIL"⟩,
  ⟨.renderState, 54, "STENCILZFAIL"⟩,
  ⟨.renderState, 55, "STENCILPASS"⟩,
  ⟨.renderState, 56, "STENCILFUNC"⟩,
  ⟨.renderState, 57, "STENCILREF"⟩,
  ⟨.renderState, 58, "STENCILMASK"⟩,
  ⟨.renderState, 59, "STENCILWRITEMASK"⟩,
  ⟨.renderState, 60, "TEXTUREFACTOR"⟩,
  ⟨.renderState, 128, "WRAP0"⟩,
  ⟨.renderState, 129, "WRAP1"⟩,
  ⟨.renderState, 130, "WRAP2"⟩,
  ⟨.renderState, 131, "WRAP3"⟩,
  ⟨.renderState, 132, "WRAP4"⟩,
  ⟨.renderState, 133, "WRAP5"⟩,
  ⟨.renderState, 134, "WRAP6"⟩,
  ⟨.renderState, 135, "WRAP7"⟩,
  ⟨.renderState, 198, "WRAP8"⟩,
  ⟨.renderState, 199, "WRAP9"⟩,
  ⟨.renderState, 200, "WRAP10"⟩,
  ⟨.renderState, 201, "WRAP11"⟩,
  ⟨.renderState, 202, "WRAP12"⟩,
  ⟨.renderState, 203, "WRAP13"⟩,
  ⟨.renderState, 204, "WRAP14"⟩,
  ⟨.renderState, 205, "WRAP15"⟩,
  ⟨.renderState, 136, "CLIPPING"⟩,
  ⟨.renderState, 137, "LIGHTING"⟩,
  ⟨.renderState, 139, "AMBIENT"⟩,
  ⟨.renderState, 140, "FOGVERTEXMODE"⟩,
  ⟨.renderState, 141, "COLORVERTEX"⟩,
  ⟨.renderState, 142, "LOCALVIEWER"⟩,
  ⟨.renderState, 143, "NORMALIZENORMALS"⟩,
  ⟨.renderState, 145, "DIFFUSEMATERIALSOURCE"⟩,
  ⟨.renderState, 146, "SPECULARMATERIALSOURCE"⟩,
  ⟨.renderState, 147, "AMBIENTMATERIALSOURCE"⟩,
  ⟨.renderState, 148, "EMISSIVEMATERIALSOURCE"⟩,
  ⟨.renderState, 151, "VERTEXBLEND"⟩,
  ⟨.renderState, 152, "CLIPPLANEENABLE"⟩,
  ⟨.renderState, 154, "POINTSIZE"⟩,
  ⟨.renderState, 155, "POINTSIZE_MIN"⟩,
  ⟨.renderState, 166, "POINTSIZE_MAX"⟩,
  ⟨.renderState, 156, "POINTSPRITEENABLE"⟩,
  ⟨.renderState, 157, "POINTSCALEENABLE"⟩,
  ⟨.renderState, 158, "POINTSCALE_A"⟩,
  ⟨.renderState, 159, "POINTSCALE_B"⟩,
  ⟨.renderState, 160, "POINTSCALE_C"⟩,
  ⟨.renderState, 161, "MULTISAMPLEANTIALIAS"⟩,
  ⟨.renderState, 162, "MULTISAMPLEMASK"⟩,
  ⟨.renderState, 163, "PATCHEDGESTYLE"⟩,
  ⟨.renderState, 165, "DEBUGMONITORTOKEN"⟩,
  ⟨.renderState, 167, "INDEXEDVERTEXBLENDENABLE"⟩,
  ⟨.renderState, 168, "COLORWRITEENABLE"⟩,
  ⟨.renderState, 170, "TWEENFACTOR"⟩,
  ⟨.renderState, 171, "BLENDOP"⟩,
  ⟨.renderState, 172, "POSITIONDEGREE"⟩,
  ⟨.renderState, 173, "NORMALDEGREE"⟩,
  ⟨.renderState, 174, "SCISSORTESTENABLE"⟩,
  ⟨.renderState, 175, "SLOPESCALEDEPTHBIAS"⟩,
  ⟨.renderState, 176, "ANTIALIASEDLINEENABLE"⟩,
  ⟨.renderState, 178, "MINTESSELLATIONLEVEL"⟩,
  ⟨.renderState, 179, "MAXTESSELLATIONLEVEL"⟩,
  ⟨.renderState, 180, "ADAPTIVETESS_X"⟩,
  ⟨.renderState, 181, "ADAPTIVETESS_Y"⟩,
  ⟨.renderState, 182, "ADAPTIVETESS_Z"⟩,
  ⟨.renderState, 183, "ADAPTIVETESS_W"⟩,
  ⟨.renderState, 184, "ENABLEADAPTIVETESSELLATION"⟩,
  ⟨.renderState, 185, "TWOSIDEDSTENCILMODE"⟩,
  ⟨.renderState, 186, "CCW_STENCILFAIL"⟩,
  ⟨.renderState, 187, "CCW_STENCILZFAIL"⟩,
  ⟨.renderState, 188, "CCW_STENCILPASS"⟩,
  ⟨.renderState, 189, "CCW_STENCILFUNC"⟩,
  ⟨.renderState, 190, "COLORWRITEENABLE1"⟩,
  ⟨.renderState, 191, "COLORWRITEENABLE2"⟩,
  ⟨.renderState, 192, "COLORWRITEENABLE3"⟩,
  ⟨.renderState, 193, "BLENDFACTOR"⟩,
  ⟨.renderState, 194, "SRGBWRITEENABLE"⟩,
  ⟨.renderState, 195, "DEPTHBIAS"⟩,
  ⟨.renderState, 206, "SEPARATEALPHABLENDENABLE"⟩,
  ⟨.renderState, 207, "SRCBLENDALPHA"⟩,
  ⟨.renderState, 208, "DESTBLENDALPHA"⟩,
  ⟨.renderState, 209, "BLENDOPALPHA"⟩]

/-- Texture stage states. -/
def textureStageStates : List StateInfo := [
  ⟨.textureStage, 1, "COLOROP"⟩,
  ⟨.textureStage, 26, "COLORARG0"⟩,
  ⟨.textureStage, 2, "COLORARG1"⟩,
  ⟨.textureStage, 3, "COLORARG2"⟩,
  ⟨.textureStage, 4, "ALPHAOP"⟩,
  ⟨.textureStage, 27, "ALPHAARG0"⟩,
  ⟨.textureStage, 5, "ALPHAARG1"⟩,
  ⟨.textureStage, 6, "ALPHAARG2"⟩,
  ⟨.textureStage, 28, "RESULTARG"⟩,
  ⟨.textureStage, 7, "BUMPENVMAT00"⟩,
  ⟨.textureStage, 8, "BUMPENVMAT01"⟩,
  ⟨.textureStage, 9, "BUMPENVMAT10"⟩,
  ⟨.textureStage, 10, "BUMPENVMAT11"⟩,
  ⟨.textureStage, 22, "BUMPENVLSCALE"⟩,
  ⟨.textureStage, 23, "BUMPENVLOFFSET"⟩,
  ⟨.textureStage, 11, "TEXCOORDINDEX"⟩,
  ⟨.textureStage, 24, "TEXTURETRANSFORMFLAGS"⟩,
  ⟨.textureStage, 32, "CONSTANT"⟩]

/-- Tessellation, vertex format, transforms, material and lights. -/
def fixedFunctionStates : List StateInfo := [
  ⟨.patchMode, 0, "NPATCHMODE"⟩,
  ⟨.vertexFormat, 0, "FVF"⟩,
  ⟨.transform, 3, "PROJECTION"⟩,
  ⟨.transform, 2, "VIEW"⟩,
  ⟨.transform, 256, "WORLD"⟩,
  ⟨.transform, 16, "TEXTURE0"⟩,
  ⟨.material, 0, "MATERIALDIFFUSE"⟩,
  ⟨.material, 1, "MATERIALAMBIENT"⟩,
  ⟨.material, 2, "MATERIALSPECULAR"⟩,
  ⟨.material, 3, "MATERIALEMISSIVE"⟩,
  ⟨.material, 4, "MATERIALPOWER"⟩,
  ⟨.light, 0, "LIGHTTYPE"⟩,
  ⟨.light, 1, "LIGHTDIFFUSE"⟩,
  ⟨.light, 2, "LIGHTSPECULAR"⟩,
  ⟨.light, 3, "LIGHTAMBIENT"⟩,
  ⟨.light, 4, "LIGHTPOSITION"⟩,
  ⟨.light, 5, "LIGHTDIRECTION"⟩,
  ⟨.light, 6, "LIGHTRANGE"⟩,
  ⟨.light, 7, "LIGHTFALLOFF"⟩,
  ⟨.light, 8, "LIGHTATTENUATION0"⟩,
  ⟨.light, 9, "LIGHTATTENUATION1"⟩,
  ⟨.light, 10, "LIGHTATTENUATION2"⟩,
  ⟨.light, 11, "LIGHTTHETA"⟩,
  ⟨.light, 12, "LIGHTPHI"⟩,
  ⟨.lightEnable, 0, "LIGHTENABLE"⟩]

/-- Shaders and their constants. -/
def shaderStates : List StateInfo := [
  ⟨.vertexShader, 0, "VERTEXSHADER"⟩,
  ⟨.pixelShader, 0, "PIXELSHADER"⟩,
  ⟨.shaderConstant, 0, "VERTEXSHADERCONSTANTF"⟩,
  ⟨.shaderConstant, 1, "VERTEXSHADERCONSTANTB"⟩,
  ⟨.shaderConstant, 2, "VERTEXSHADERCONSTANTI"⟩,
  ⟨.shaderConstant, 3, "PIXELSHADERCONSTANTF"⟩,
  ⟨.shaderConstant, 4, "PIXELSHADERCONSTANTB"⟩,
  ⟨.shaderConstant, 5, "PIXELSHADERCONSTANTI"⟩]

/-- Textures, the states of samplers, and samplers as a whole. -/
def samplerStates : List StateInfo := [
  ⟨.texture, 0, "TEXTURE"⟩,
  ⟨.samplerState, 1, "ADDRESSU"⟩,
  ⟨.samplerState, 2, "ADDRESSV"⟩,
  ⟨.samplerState, 3, "ADDRESSW"⟩,
  ⟨.samplerState, 4, "BORDERCOLOR"⟩,
  ⟨.samplerState, 5, "MAGFILTER"⟩,
  ⟨.samplerState, 6, "MINFILTER"⟩,
  ⟨.samplerState, 7, "MIPFILTER"⟩,
  ⟨.samplerState, 8, "MIPMAPLODBIAS"⟩,
  ⟨.samplerState, 9, "MAXMIPLEVEL"⟩,
  ⟨.samplerState, 10, "MAXANISOTROPY"⟩,
  ⟨.samplerState, 11, "SRGBTEXTURE"⟩,
  ⟨.samplerState, 12, "ELEMENTINDEX"⟩,
  ⟨.samplerState, 13, "DMAPOFFSET"⟩,
  ⟨.sampler, 0, "SAMPLER"⟩]

/-- The table of state operations. -/
def entries : List StateInfo :=
  renderStates ++ textureStageStates ++ fixedFunctionStates ++
    shaderStates ++ samplerStates

/-- The number of operations. -/
def size : Nat := entries.length

/-- The operation with the given number. -/
def info? (operation : UInt32) : Option StateInfo := entries[operation.toNat]?

/-- The number of the first operation of a family that sets the given state. -/
def index? (cls : StateClass) (op : UInt32) : Option Nat :=
  entries.findIdx? fun s => s.cls == cls && s.op == op

end StateTable

end ShaderEffect
