set_option autoImplicit false

namespace BufferFlow

inductive Device
  | cpu
  | cuda
  | cl
  deriving DecidableEq

namespace Device

def all : List Device := [.cpu, .cuda, .cl]

def name : Device → String
  | .cpu => "cpu"
  | .cuda => "cuda"
  | .cl => "cl"

def label : Device → String
  | .cpu => "CPU"
  | .cuda => "CUDA"
  | .cl => "CL"

def ofName? (text : String) : Option Device := all.find? (·.name == text)

end Device

end BufferFlow
