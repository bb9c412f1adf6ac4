/-!
Classes of characters beyond the first 128 code points, after version 14 of the
Unicode character database: letters and numerals, which may stand in a word; decimal
digits, in runs of ten; blanks; and characters that have no printed form.
-/
namespace BlockScript.Text

def packedDigits : List Char :=
  ((List.range 94).map fun i => Char.ofNat (33 + i)).filter (!"\"\\\x7b\x7d".toList.contains ·)

def digitsOf (packed : String) : List Nat :=
  (packed.toList.filter (· ≠ '\n')).map fun c => packedDigits.idxOf c

/-- The numbers in a packed text, of which the first 76 digits end a number. -/
def numbersFrom (value : Nat) : List Nat → List Nat
  | [] => []
  | digit :: rest =>
    if digit < 76 then (76 * value + digit) :: numbersFrom 0 rest
    else numbersFrom (14 * value + (digit - 76)) rest

/-- First and last code points of runs by lengths: in turn how many code points lie before the next
run, and how many it has. -/
def runsFrom (start : Nat) : List Nat → List (Nat × Nat)
  | gap :: length :: rest =>
    (start + gap, start + gap + length - 1) :: runsFrom (start + gap + length) rest
  | _ => []

def packedRuns (packed : String) : List (Nat × Nat) :=
  runsFrom 128 (numbersFrom 0 (digitsOf packed))

def wordRanges : List (Nat × Nat) :=
  packedRuns
    "L#)$##%$#%#9#A#u$&.0')###pW'#$$&##(##%###6#p)#pb*q0#H$#(Kj=&&OM7,&$#p9##1$)1$#2##@?p/-#0M+$&#'8
&#+#%#9;)-':#(3L]X%#4#),&,#2&*$$$8#)##%&%#2#/$#%&.$($#*(&$$8#)#$#$#$A&##),$%2+#%#8#)#$#'%#4#1$&,+#-*
$$$8#)#$#'%#@$#%&,#)-##(%%#&%$###$%$%%%.8#7/4*#%#9#2%#<%$#$$&,*)##&*#%#9#,#'%#A$#$&,#$3+#%#K$#2#'%#,
&5#('4%:#+##$)A,3R#$.)+,I$###'#:###,#$+#$'##+,$&B#A6.*#F='pIM6-((&&%#%$)%&/.##,(H##'#$M#s?#&$)###&$K
#&$C#&$)###&$1#[#&$f06%22p,$(%w.$3#<'n%-)4/5040/#%1VE#&#%,(,8,(p/)'$D##'i,AIJ$'-N&<(-G9+WM,(,/#p3Q3*
%,K@/Z<F>,%S$+)M$%K&#(#$%#'qJcrT$($H$($*#######A$W#)##%%#)%&$(&/'%#)pI$$('-(/p;#&#$,##%'(######&#-$&
''&##]xL_p$8w8@pogr#(&%$+#$H##'#$Z)#29+)#)#)#)#)#)#)#)p&#u/%;+)'$'&p,(%#p0#&'M#p4%&,BR2B,@*#1B,I1s2u
qZcpuzKfP$rK%>6Q2A$p&I+$p=$c'$###':2#%#&#9/(,V0T>,:(%##$#H,9;?)Q>-('#;#K9%#*&,(9%#%T##%$$'$###:%$-)%
.($($(+)#)#M#0(pI/,(yv!.9&Sv~2sa$p@H).''##,#/#'###$#$#pBCs^4c$XJ.pJ'#p^5,)<(<-p/%($($($%E.#<#5#$#1$0
DpQ.O.[3$r2?%S2=&F+@'H,@$F&*#'Lq($,(F&F&J*V.-#1#)#$#-#1#)#$fs)+8,*:(#L#+h($##N#$%#$9$A$H*+R5#$'C&<iZ
&6$Q1&#%#?,+9A#BB*#>('2X,8$='<9)p&lYU/U)L.,reA#L($p$J*8-&=4P>69.W<@#$$#/OB;),+F1,&#$#*E%#.R0&--##&6-
4#;p*)###&#1#,)Q3,-*$$$8#)#$#'%#4#.'q(W4&','%@R6$##*,q0QK&FR6#-,HM/#),X=7.&)qCNpJp).*$#$*#$#:1###0,i
*$I2###>#,J)#7#-P5#4lrE+#G3#1?'@pF)#$#H7#+,((#$#B0#),s(5qG#17M|,p<pE3qNquVp71po)rz7vUwpOvG)A#,(p%#,(
@4R2&.,#)#7'5x&p-p?n'#e/c$##>tyZ*pq8L+wtM&#)#$#rbO%3&*t2qq>pA'/%+),tt$6pB;p^p+#j#$$#$$$&#.###)#d#&$*
#)#>#&#'##%)#sF$;#;#A#;#A#;#A#;#A#;#*$TpxNAu;O,)$,&#s3@4N&,pqH)#&#$#1#qO$+Rg)#&,yA^#%#&p!O#1qL&#=#$#
#$##,#&####(#&######%#$##$##########$##$&#)#&#&###,#3'%#'#3vR/qwU,~Lq|q*Br|S)qi$tta0vo;q|bv,ptaswn"

/-- Controls, separators, format marks, private characters and unassigned codes. -/
def unprintableRanges : List (Nat × Nat) :=
  packedRuns
    "!C.#x@$(&)###6#t3#H$T$%#Y*=&(38#qJ#R$^$p;0^$S$1#>$##-'A+m#q+#*$$$8#)##%&$+$$$&*#&$#'$;$%#(&$$8#
)#$#$#$$##'&$$%%#)&##)3,%#+#%#8#)#$#'$,#%#%$#1&$.))#%#*$$$8#)#$#'$+$$$%)%&$#'$4,$#(%%#&%$###$%$%%%.&
'%%#&$#(#07'/#%#9#2$+#%#&)$#%$#$&$,)8#%#9#,#'$+#%#&)$($#&$,#$//#%#U#%#(&2$<#%#4%:#+##$)%#&(###*(,$%.
]&?G$###'#:###9$'###($,$&Bk#F&I#F#1#/GqP##'#$sl#&$)###&$K#&$C#&$)###&$1#[#&$f$B%<(p,$($wB#>%p/)8+:+6
./#%#$.p4$,(,(0#-(p/)M'i,A#.&.&#%L$'-N&<(-%a$d#?$-(,(0$ASp#%Q#pJ*_%1%_)M$-*M'v$$($H$($*#######A$W#1#
0$(#5$%#+3:*Q3$$=#/%C1C1pc&wY;-7pxc$B#sO'O##'#$Z)$0:+)#)#)#)#)#)#)#)#pTD<#p/.qa<.'b#p,$p='M#p4#p*.Q#
p~vC%Y+sN6qB*qU'$###':^%,(Z*i*.(pJ-@%p$#-&C#Y+0$,$p=:>,($($(+)#)#_&pT$,(yv!.9&Sv~2sa$p@H).''<#'###$#
$#pS2td$X)#BL(U#5#&&'#p^&qH%($($($%%)#)/$$.#<#5#$#1$0DpQ'%&O%p.#/%#QPpX?%S1>&F+@'M'@#G&0Lq($,(F&F&J*
V-.#1#)#$#-#1#)#$fs)+8,*:(#L#+h($##N#$%#$9#k*+R5#$'C%='#cZ&6$T#$'*#%#?$%&,)+)cBI&.+X%?$='<)&.)p&lYU/
U)P*,reA#L#%$$p$J*L8<H>69+p$&F+a#'/;),(W#4*I+p6#6-4#Nd)###&#1#-(^',(&#*$$$8#)#$#'#,$$$%$#(#')$)%'pbp
2#'@k*,q0X$HDh-,(/5](,X=$1&9qC_p:p).*$#$*#$#@#$$.+,i*$P$-=k*p)/lrE+#O#0,?%B$8#0l)#$#N%##$#+*,((#$#G#
$#(),s(;qA#1T/|-p<pE#'-qNquVp9/po)rz7vUwpOvG)A#,&p'#,(@$(,i,,#)#7'5x&p1p;n&[)3c'-$0tyZ*pq8L+wtM&#)#$
#rbO%3&*t2qq>pA'/%+),$&stgP$9+pJ_r4,I$m*pF7iq$6.p-+;p^p+#j#$$#$$$&#.###)#d#&$*#)#>#&#'##%)#sF$rc$x41
'#1poJAql)#3$)#$#'q`O%0$,&$s2A3]'#pqB)#&#$#1#qO$2Kp!&,&$y;gp!`qL&#=#$##$##,#&####(#&######%#$##$####
######$##$&#)#&#&###,#3'%#'#3V$rLN&p:.1$1#1#G,q8Z?/N&+)$0(q$|k'2%/%pJ.p/).&#1.&Z*,(J*@$$p$sF.0$'%'%)
+?%-'(,,(**)+pj#YG,~Lq|q*Br|S)qi$tta0vo;q|bv,ptaswnruppdr.~qsB"

/-- The code points of the zeros of the scripts that have decimal digits. -/
def digitZeros : List Nat :=
  [0x660, 0x6f0, 0x7c0, 0x966, 0x9e6, 0xa66, 0xae6, 0xb66, 0xbe6, 0xc66, 0xce6, 0xd66, 0xde6,
   0xe50, 0xed0, 0xf20, 0x1040, 0x1090, 0x17e0, 0x1810, 0x1946, 0x19d0, 0x1a80, 0x1a90, 0x1b50,
   0x1bb0, 0x1c40, 0x1c50, 0xa620, 0xa8d0, 0xa900, 0xa9d0, 0xa9f0, 0xaa50, 0xabf0, 0xff10,
   0x104a0, 0x10d30, 0x11066, 0x110f0, 0x11136, 0x111d0, 0x112f0, 0x11450, 0x114d0, 0x11650,
   0x116c0, 0x11730, 0x118e0, 0x11950, 0x11c50, 0x11d50, 0x11da0, 0x16a60, 0x16ac0, 0x16b50,
   0x1d7ce, 0x1d7d8, 0x1d7e2, 0x1d7ec, 0x1d7f6, 0x1e140, 0x1e2f0, 0x1e950, 0x1fbf0]

/-- The blanks among the characters beyond the first 128. -/
def blankCodes : List Nat :=
  [0x85, 0xa0, 0x1680, 0x2000, 0x2001, 0x2002, 0x2003, 0x2004, 0x2005, 0x2006, 0x2007, 0x2008,
   0x2009, 0x200a, 0x2028, 0x2029, 0x202f, 0x205f, 0x3000]

end BlockScript.Text
